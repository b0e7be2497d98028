import Softphone.Proofs.Text.Fields
import Softphone.Target

/-!
# Targets in full

A target of blanks only is refused. Any other one comes out trimmed and with a scheme, which is `sip:` unless it
names one, and what has come out is left as it is. So two targets come to the same exactly if they are the same
once they are trimmed, or if one of them names no scheme and the other one is that with `sip:` in front
(`Target.normalize_projects`).
-/

namespace Softphone.Target

variable {t t' : String}

/-- A text begins with a scheme that a target may name. -/
def Schemed (t : String) : Prop := "sip:".toList <+: t.toList ∨ "sips:".toList <+: t.toList

/-- The second text is the first one, which names no scheme, with `sip:` in front. -/
def Completes (t t' : String) : Prop := ¬ Schemed t ∧ t' = "sip:" ++ t

theorem hasScheme_iff : hasScheme t = true ↔ Schemed t := by
  rw [hasScheme, Bool.or_eq_true, List.isPrefixOf_iff_prefix, List.isPrefixOf_iff_prefix, Schemed]

instance : DecidablePred Schemed := fun _ => decidable_of_iff _ hasScheme_iff

/-- A text with the scheme that it names, or else with `sip:`. -/
def inFull (t : String) : String := if Schemed t then t else "sip:" ++ t

theorem schemed_append (t : String) : Schemed ("sip:" ++ t) := by
  rw [Schemed, String.toList_append]
  exact .inl (List.prefix_append _ _)

theorem append_ne_self (t : String) : "sip:" ++ t ≠ t := by
  intro h
  have hlength := congrArg String.length h
  rw [String.length_append] at hlength
  have hscheme : "sip:".length = 4 := rfl
  omega

theorem inFull_of_schemed (h : Schemed t) : inFull t = t := if_pos h

theorem inFull_of_not_schemed (h : ¬ Schemed t) : inFull t = "sip:" ++ t := if_neg h

theorem schemed_inFull (t : String) : Schemed (inFull t) := by
  by_cases h : Schemed t
  · rwa [inFull_of_schemed h]
  · rw [inFull_of_not_schemed h]
    exact schemed_append t

theorem inFull_eq_self_iff : inFull t = t ↔ Schemed t :=
  ⟨fun h => h ▸ schemed_inFull t, inFull_of_schemed⟩

theorem inFull_eq_append_iff : inFull t = "sip:" ++ t ↔ ¬ Schemed t :=
  ⟨fun h hschemed => append_ne_self t (h.symm.trans (inFull_of_schemed hschemed)), inFull_of_not_schemed⟩

/-- Two texts are the same in full exactly if they are the same, up to a scheme that one of them lacks. -/
theorem inFull_eq_inFull_iff : inFull t = inFull t' ↔ t = t' ∨ Completes t t' ∨ Completes t' t := by
  constructor
  · intro h
    by_cases ht : Schemed t <;> by_cases ht' : Schemed t'
    · rw [inFull_of_schemed ht, inFull_of_schemed ht'] at h
      exact .inl h
    · rw [inFull_of_schemed ht, inFull_of_not_schemed ht'] at h
      exact .inr (.inr ⟨ht', h⟩)
    · rw [inFull_of_not_schemed ht, inFull_of_schemed ht'] at h
      exact .inr (.inl ⟨ht, h.symm⟩)
    · rw [inFull_of_not_schemed ht, inFull_of_not_schemed ht', String.append_right_inj] at h
      exact .inl h
  · have hcompleted {s s' : String} (h : Completes s s') : inFull s = inFull s' := by
      rw [inFull_of_not_schemed h.1, h.2, inFull_of_schemed (schemed_append s)]
    rintro (rfl | h | h)
    · rfl
    · exact hcompleted h
    · exact (hcompleted h).symm

/-- The scheme in front is no blank, so nothing but the end of a text counts. -/
theorem unpadded_inFull (h : Text.Unpadded t.toList) (hsome : t ≠ "") : Text.Unpadded (inFull t).toList := by
  by_cases hschemed : Schemed t
  · rwa [inFull_of_schemed hschemed]
  · rw [inFull_of_not_schemed hschemed, String.toList_append]
    refine ⟨fun c hc => ?_, fun c hc => h.last c ?_⟩
    · obtain rfl := Option.some.inj hc
      rfl
    · rwa [List.getLast?_append_of_ne_nil _ (mt String.toList_eq_nil_iff.1 hsome)] at hc

/-! ## Normalizing -/

theorem trim_eq_empty_iff : Text.trim t = "" ↔ Text.AllBlank t.toList := by
  rw [Text.trim, ← Text.trimChars_eq_nil_iff, ← String.toList_inj, String.toList_ofList]
  rfl

theorem trim_of_unpadded (h : Text.Unpadded t.toList) : Text.trim t = t := by
  rw [Text.trim, h.trimChars, String.ofList_toList]

theorem normalize_of_allBlank (h : Text.AllBlank t.toList) :
    normalize t = .error (.invalidArgument "target" "must not be empty") := by
  rw [normalize, if_pos (trim_eq_empty_iff.2 h)]

theorem normalize_of_not_allBlank (h : ¬ Text.AllBlank t.toList) : normalize t = .ok (inFull (Text.trim t)) := by
  rw [normalize, if_neg (mt trim_eq_empty_iff.1 h), inFull]
  simp only [hasScheme_iff, apply_ite Except.ok]

/-- A text in full is left as it is. -/
theorem normalize_inFull (h : Text.Unpadded t.toList) (hsome : t ≠ "") :
    normalize (inFull t) = .ok (inFull t) := by
  have htrim : Text.trim (inFull t) = inFull t := trim_of_unpadded (unpadded_inFull h hsome)
  have hfull : inFull t ≠ "" := by
    intro hempty
    have hschemed := schemed_inFull t
    rw [hempty] at hschemed
    revert hschemed
    decide
  have hblank : ¬ Text.AllBlank (inFull t).toList := by
    rwa [← trim_eq_empty_iff, htrim]
  rw [normalize_of_not_allBlank hblank, htrim, inFull_of_schemed (schemed_inFull t)]

/-- What a target comes to. -/
structure Projects (t r : String) : Prop where
  trimmed : Text.Padded t.toList (Text.trim t).toList ∧ Text.Unpadded (Text.trim t).toList
  schemed : Schemed r
  unpadded : Text.Unpadded r.toList
  fixed : normalize r = .ok r
  kept_iff : r = Text.trim t ↔ Schemed (Text.trim t)
  completed_iff : r = "sip:" ++ Text.trim t ↔ ¬ Schemed (Text.trim t)

theorem projects_inFull (h : ¬ Text.AllBlank t.toList) : Projects t (inFull (Text.trim t)) := by
  have htrimmed : Text.Padded t.toList (Text.trim t).toList ∧ Text.Unpadded (Text.trim t).toList := by
    rw [Text.trim, String.toList_ofList]
    exact Text.trimChars_eq_iff.1 rfl
  have hsome : Text.trim t ≠ "" := mt trim_eq_empty_iff.1 h
  exact {
    trimmed := htrimmed
    schemed := schemed_inFull _
    unpadded := unpadded_inFull htrimmed.2 hsome
    fixed := normalize_inFull htrimmed.2 hsome
    kept_iff := inFull_eq_self_iff
    completed_iff := inFull_eq_append_iff }

/-- **Targets are normalized once.** Exactly a target of blanks only is refused. Any other one comes to its trimmed
form, with `sip:` in front exactly if that names no scheme, and this has no blanks around it, names a scheme and
is left as it is; and two targets come to the same exactly if their trimmed forms are the same, up to a `sip:` that
one of them lacks. -/
theorem normalize_projects (t : String) :
    (∀ e, normalize t = .error e ↔
      Text.AllBlank t.toList ∧ e = .invalidArgument "target" "must not be empty") ∧
    (¬ Text.AllBlank t.toList → ∃ r, normalize t = .ok r ∧ Projects t r) ∧
    ∀ t', ¬ Text.AllBlank t.toList → ¬ Text.AllBlank t'.toList →
      (normalize t = normalize t' ↔
        Text.trim t = Text.trim t' ∨ Completes (Text.trim t) (Text.trim t') ∨
          Completes (Text.trim t') (Text.trim t)) := by
  refine ⟨fun e => ⟨fun he => ?_, ?_⟩, fun h => ⟨_, normalize_of_not_allBlank h, projects_inFull h⟩,
    fun t' h h' => ?_⟩
  · by_cases h : Text.AllBlank t.toList
    · exact ⟨h, Except.error.inj (he.symm.trans (normalize_of_allBlank h))⟩
    · cases (normalize_of_not_allBlank h).symm.trans he
  · rintro ⟨h, rfl⟩
    exact normalize_of_allBlank h
  · rw [normalize_of_not_allBlank h, normalize_of_not_allBlank h', Except.ok.injEq]
    exact inFull_eq_inFull_iff

/-- A target without a scheme comes to the same as the one with `sip:`, whatever blanks are around it. -/
theorem normalize_projects_bob : ¬ Text.AllBlank "\nbob ".toList ∧ ¬ Text.AllBlank "sip:bob".toList ∧
    normalize "\nbob " = normalize "sip:bob" := by
  have hbare : ¬ Text.AllBlank "\nbob ".toList := mt trim_eq_empty_iff.2 (by decide)
  have hschemed : ¬ Text.AllBlank "sip:bob".toList := mt trim_eq_empty_iff.2 (by decide)
  obtain ⟨-, -, hsame⟩ := normalize_projects "\nbob "
  exact ⟨hbare, hschemed, (hsame _ hbare hschemed).2 (.inr (.inl (by rw [Completes]; decide)))⟩

/-- A scheme alone is left as it is, and so is one that is named twice. -/
example : normalize " sip:\t" = .ok "sip:" ∧ normalize "sip:sips:bob" = .ok "sip:sips:bob" := by
  decide

end Softphone.Target
