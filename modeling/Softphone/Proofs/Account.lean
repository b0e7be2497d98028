import Softphone.Account
import Softphone.Proofs.Text.Fields

/-!
# What the line of an account tells

The fields of an account go into its line as they are, so a separator of the line that stands in a field can be
taken for the line's own. A line always tells the interval, and it tells the other fields of an account that can be
used exactly if no such separator stands where the line could be cut at it (`Account.line_told_apart_iff`).
-/

namespace Softphone.Account

variable {a b : Account}

/-! ## Lines -/

/-- What stands before the password in a line. -/
def passwordMark : String := ">;auth_pass="

/-- What stands before the server for the public address in a line. -/
def serverMark : String := ";stunserver=\""

/-- What stands between the texts and the interval in a line. -/
def intervalMark : String := "\";regq=0.5;pubint=0;regint="

/-- The texts of an account with the separators of a line between them. -/
def spliced (a : Account) : String :=
  a.username ++ "@" ++ a.domain ++ passwordMark ++ (a.password ++ serverMark ++ a.stunServer)

theorem toList_line (a : Account) : a.line.toList =
    ("<sip:" ++ a.spliced ++ intervalMark).toList ++ Nat.toDigits 10 a.registrationInterval.toNat := by
  simp [line, aor, spliced, passwordMark, serverMark, intervalMark]

/-- Two lines are the same exactly if the same text is spliced and the intervals are the same. -/
theorem line_eq_line_iff :
    b.line = a.line ↔ b.spliced = a.spliced ∧ b.registrationInterval = a.registrationInterval := by
  have hend (c : Account) :
      ∀ d ∈ ("<sip:" ++ c.spliced ++ intervalMark).toList.getLast?, d.isDigit = false := by
    intro d hd
    rw [String.toList_append, List.getLast?_append_of_ne_nil _ (by decide)] at hd
    obtain rfl := Option.some.inj hd
    rfl
  rw [← String.toList_inj, toList_line, toList_line, Text.append_toDigits_inj (hend b) (hend a),
    String.toList_inj, String.append_left_inj, String.append_right_inj, UInt32.toNat_inj]

/-! ## Parts of a line -/

/-- The address and the parameters that a line is to have. -/
def parts (a : Account) : List String :=
  ["<" ++ a.aor ++ ">", "auth_pass=" ++ a.password, "stunserver=\"" ++ a.stunServer ++ "\"", "regq=0.5",
    "pubint=0", "regint=" ++ toString a.registrationInterval.toNat]

/-- The fields of an account that are texts. -/
def texts (a : Account) : List String := [a.username, a.domain, a.password, a.stunServer]

theorem toList_line_eq_intercalate (a : Account) :
    a.line.toList = [';'].intercalate (a.parts.map String.toList) := by
  simp [line, parts]

/-- Between the semicolons of a line stand its parts exactly if no text has a semicolon. -/
theorem splitOn_line_iff :
    Text.splitOn ';' a.line.toList = a.parts.map String.toList ↔ ∀ text ∈ a.texts, ';' ∉ text.toList := by
  rw [toList_line_eq_intercalate, parts, List.map_cons, Text.splitOn_intercalate_eq_iff]
  have hinterval := Text.not_mem_toDigits (c := ';') rfl a.registrationInterval.toNat
  simp [texts, aor, hinterval, and_assoc]

/-! ## Accounts with the same line -/

/-- Two accounts have the same fields, but that an interval may be given or not. -/
structure SameFields (a b : Account) : Prop where
  username : a.username = b.username
  domain : a.domain = b.domain
  password : a.password = b.password
  stunServer : a.stunServer = b.stunServer
  interval : a.registrationInterval = b.registrationInterval

/-- No separator of a line stands in a field where the line could be cut at it instead. It could not be cut where
the username or the domain would be blank, since no such account can be used. -/
structure Legible (a : Account) : Prop where
  username_at : ∀ cut ∈ Text.cuts "@" a.username, Text.isBlankText cut.1
  domain_at : ∀ cut ∈ Text.cuts "@" a.domain, Text.isBlankText cut.2
  domain_password : ∀ cut ∈ Text.cuts passwordMark a.domain, Text.isBlankText cut.1
  password_password : Text.cuts passwordMark a.password = []
  password_server : Text.cuts serverMark a.password = []
  stunServer_server : Text.cuts serverMark a.stunServer = []

instance : DecidablePred Legible := fun a => decidable_of_iff
  ((∀ cut ∈ Text.cuts "@" a.username, Text.isBlankText cut.1) ∧
    (∀ cut ∈ Text.cuts "@" a.domain, Text.isBlankText cut.2) ∧
    (∀ cut ∈ Text.cuts passwordMark a.domain, Text.isBlankText cut.1) ∧
    Text.cuts passwordMark a.password = [] ∧ Text.cuts serverMark a.password = [] ∧
    Text.cuts serverMark a.stunServer = [])
  ⟨fun ⟨hu, hd, hm, hp, hs, ht⟩ => ⟨hu, hd, hm, hp, hs, ht⟩,
    fun ⟨hu, hd, hm, hp, hs, ht⟩ => ⟨hu, hd, hm, hp, hs, ht⟩⟩

theorem check_eq_ok_iff : a.check = .ok () ↔
    Text.isBlankText a.username = false ∧ Text.isBlankText a.domain = false ∧ a.expires ≠ some 0 := by
  rw [check]
  split
  · simp [*]
  · split
    · simp [*]
    · split <;> simp [*]

/-! ### Legible accounts -/

section

variable (h : a.Legible)
include h

theorem Legible.address_inj (husername : Text.isBlankText b.username = false)
    (hdomain : Text.isBlankText b.domain = false)
    (heq : a.username ++ "@" ++ a.domain = b.username ++ "@" ++ b.domain) :
    a.username = b.username ∧ a.domain = b.domain := by
  rcases Text.cut_cases (by decide) (by decide) heq with ⟨hu, hd⟩ | ⟨z, -, hd⟩ | ⟨z, hu, -⟩
  · exact ⟨hu, (String.append_right_inj _).1 hd⟩
  · have hblank := h.domain_at _ (Text.mem_cuts_iff.2 hd)
    cases hblank.symm.trans hdomain
  · have hblank := h.username_at _ (Text.mem_cuts_iff.2 hu)
    cases hblank.symm.trans husername

theorem Legible.credentials_inj
    (heq : a.password ++ serverMark ++ a.stunServer = b.password ++ serverMark ++ b.stunServer) :
    a.password = b.password ∧ a.stunServer = b.stunServer := by
  rcases Text.cut_cases (by decide) (by decide) heq with ⟨hp, hs⟩ | ⟨z, -, hs⟩ | ⟨z, hp, -⟩
  · exact ⟨hp, (String.append_right_inj _).1 hs⟩
  · exact absurd (Text.mem_cuts_iff.2 hs) (h.stunServer_server ▸ List.not_mem_nil)
  · exact absurd (Text.mem_cuts_iff.2 hp) (h.password_server ▸ List.not_mem_nil)

/-- The mark of the password does not stand after the one of a legible account. -/
theorem Legible.mark_not_after {z : String}
    (heq : a.password ++ serverMark ++ a.stunServer =
      z ++ passwordMark ++ (b.password ++ serverMark ++ b.stunServer)) : False := by
  rcases Text.cut_cases (by decide) (by decide) heq with ⟨-, hsame⟩ | ⟨w, -, hs⟩ | ⟨w, hp, -⟩
  · -- The two separators do not begin with the same sign.
    have hhead := congrArg (fun s : String => s.toList.head?) hsame
    simp [serverMark, passwordMark] at hhead
  · rw [← String.append_assoc, ← String.append_assoc] at hs
    exact absurd (Text.mem_cuts_iff.2 hs) (h.stunServer_server ▸ List.not_mem_nil)
  · exact absurd (Text.mem_cuts_iff.2 hp) (h.password_password ▸ List.not_mem_nil)

/-- Nor does it stand before that one, in front of which there is an account that can be used. -/
theorem Legible.mark_not_before {z : String} (husername : Text.isBlankText b.username = false)
    (hdomain : Text.isBlankText b.domain = false)
    (heq : a.username ++ "@" ++ a.domain = b.username ++ "@" ++ b.domain ++ passwordMark ++ z) : False := by
  have hcut : a.username ++ "@" ++ a.domain = b.username ++ "@" ++ (b.domain ++ passwordMark ++ z) := by
    simp only [heq, String.append_assoc]
  rcases Text.cut_cases (by decide) (by decide) hcut with ⟨-, hd⟩ | ⟨w, -, hd⟩ | ⟨w, hu, -⟩
  · have hblank := h.domain_password _ (Text.mem_cuts_iff.2 ((String.append_right_inj _).1 hd))
    cases hblank.symm.trans hdomain
  · have hblank := h.domain_at _ (Text.mem_cuts_iff.2 hd)
    rw [Text.isBlankText_append, Text.isBlankText_append, hdomain] at hblank
    cases hblank
  · have hblank := h.username_at _ (Text.mem_cuts_iff.2 hu)
    cases hblank.symm.trans husername

/-- No other account that can be used has the line of a legible one. -/
theorem Legible.sameFields (hcheck : b.check = .ok ()) (hline : b.line = a.line) : SameFields a b := by
  obtain ⟨husername, hdomain, -⟩ := check_eq_ok_iff.1 hcheck
  obtain ⟨hspliced, hinterval⟩ := line_eq_line_iff.1 hline
  -- Once the marks of the passwords are in the same place, what is on each side of them is cut once more.
  rcases Text.cut_cases (by decide) (by decide) hspliced.symm with ⟨haddress, hcredentials⟩ |
    ⟨z, -, hafter⟩ | ⟨z, hbefore, -⟩
  · obtain ⟨hu, hd⟩ := h.address_inj husername hdomain haddress
    obtain ⟨hp, hs⟩ := h.credentials_inj ((String.append_right_inj _).1 hcredentials)
    exact ⟨hu, hd, hp, hs, hinterval.symm⟩
  · exact (h.mark_not_after hafter).elim
  · exact (h.mark_not_before husername hdomain hbefore).elim

end

/-! ### Accounts whose lines tell them -/

/-- Two neighbouring fields of an account cannot be cut otherwise, so that an account that can be used is left. -/
structure CutOnce (a : Account) : Prop where
  address {x y : String} (hx : Text.isBlankText x = false) (hy : Text.isBlankText y = false)
    (heq : x ++ "@" ++ y = a.username ++ "@" ++ a.domain) : x = a.username
  password {x y : String} (hx : Text.isBlankText x = false)
    (heq : x ++ passwordMark ++ y = a.domain ++ passwordMark ++ a.password) : x = a.domain
  server {x y : String} (heq : x ++ serverMark ++ y = a.password ++ serverMark ++ a.stunServer) : x = a.password

/-- With two of its fields cut otherwise, an account would be another one that has the same line. -/
theorem cutOnce_of_told_apart (h : a.check = .ok ())
    (hone : ∀ b : Account, b.check = .ok () → b.line = a.line → SameFields a b) : a.CutOnce := by
  obtain ⟨husername, hdomain, hexpires⟩ := check_eq_ok_iff.1 h
  have hrival {b : Account} (hu : Text.isBlankText b.username = false) (hd : Text.isBlankText b.domain = false)
      (he : b.expires = a.expires) (hspliced : b.spliced = a.spliced) : SameFields a b :=
    hone b (check_eq_ok_iff.2 ⟨hu, hd, he ▸ hexpires⟩)
      (line_eq_line_iff.2 ⟨hspliced, by rw [registrationInterval, he, registrationInterval]⟩)
  refine ⟨fun {x y} hx hy heq => ?_, fun {x y} hx heq => ?_, fun {x y} heq => ?_⟩
  · have hsame : SameFields a { a with username := x, domain := y } :=
      hrival hx hy rfl (by simp only [spliced, heq])
    exact hsame.username.symm
  · have hspliced := congrArg (a.username ++ "@" ++ · ++ serverMark ++ a.stunServer) heq
    have hsame : SameFields a { a with domain := x, password := y } :=
      hrival husername hx rfl (by simpa only [spliced, String.append_assoc] using hspliced)
    exact hsame.domain.symm
  · have hsame : SameFields a { a with password := x, stunServer := y } :=
      hrival husername hdomain rfl (by simp only [spliced, heq])
    exact hsame.password.symm

/-- A separator in a field would be a place to cut at. -/
theorem CutOnce.legible (hone : a.CutOnce) (husername : Text.isBlankText a.username = false)
    (hdomain : Text.isBlankText a.domain = false) : a.Legible where
  username_at := fun ⟨x, y⟩ hcut => by
    obtain ⟨heq, hne⟩ := Text.recut_left (by decide) hcut
    by_contra hx
    exact hne (hone.address (Bool.eq_false_iff.2 hx) (by simp [Text.isBlankText_append, hdomain]) heq)
  domain_at := fun ⟨x, y⟩ hcut => by
    obtain ⟨heq, hne⟩ := Text.recut_right (by decide) hcut
    by_contra hy
    exact hne (hone.address (by simp [Text.isBlankText_append, husername]) (Bool.eq_false_iff.2 hy) heq)
  domain_password := fun ⟨x, y⟩ hcut => by
    obtain ⟨heq, hne⟩ := Text.recut_left (by decide) hcut
    by_contra hx
    exact hne (hone.password (Bool.eq_false_iff.2 hx) heq)
  password_password := List.eq_nil_iff_forall_not_mem.2 fun ⟨x, y⟩ hcut => by
    obtain ⟨heq, hne⟩ := Text.recut_right (by decide) hcut
    exact hne (hone.password (by simp [Text.isBlankText_append, hdomain]) heq)
  password_server := List.eq_nil_iff_forall_not_mem.2 fun ⟨x, y⟩ hcut => by
    obtain ⟨heq, hne⟩ := Text.recut_left (by decide) hcut
    exact hne (hone.server heq)
  stunServer_server := List.eq_nil_iff_forall_not_mem.2 fun ⟨x, y⟩ hcut => by
    obtain ⟨heq, hne⟩ := Text.recut_right (by decide) hcut
    exact hne (hone.server heq)

theorem legible_iff (h : a.check = .ok ()) :
    a.Legible ↔ ∀ b : Account, b.check = .ok () → b.line = a.line → SameFields a b := by
  obtain ⟨husername, hdomain, -⟩ := check_eq_ok_iff.1 h
  exact ⟨fun hlegible _ => hlegible.sameFields,
    fun hone => (cutOnce_of_told_apart h hone).legible husername hdomain⟩

/-- **What a line tells.** Two lines are the same exactly if the same text is spliced into them and the intervals
are the same. Of the accounts that can be used, one alone has its line exactly if it is legible. Between the
semicolons of a line stand the parts that it is to have exactly if no text has a semicolon. -/
theorem line_told_apart_iff (a : Account) (h : a.check = .ok ()) :
    (∀ b : Account, b.line = a.line ↔
      b.spliced = a.spliced ∧ b.registrationInterval = a.registrationInterval) ∧
    ((∀ b : Account, b.check = .ok () → b.line = a.line → SameFields a b) ↔ a.Legible) ∧
    (Text.splitOn ';' a.line.toList = a.parts.map String.toList ↔
      ∀ text ∈ a.texts, ';' ∉ text.toList) :=
  ⟨fun _ => line_eq_line_iff, (legible_iff h).symm, splitOn_line_iff⟩

/-- An account with signs in its password that a line uses. -/
def signsInPassword : Account := { username := "bob", domain := "example.com", password := "a@b>\"=" }

theorem line_told_apart_iff_signsInPassword : signsInPassword.check = .ok () ∧
    (∀ b : Account, b.check = .ok () → b.line = signsInPassword.line → SameFields signsInPassword b) ∧
    Text.splitOn ';' signsInPassword.line.toList = signsInPassword.parts.map String.toList := by
  have hcheck : signsInPassword.check = .ok () := by decide
  obtain ⟨-, hlegible, hparts⟩ := line_told_apart_iff signsInPassword hcheck
  exact ⟨hcheck, hlegible.2 (by decide), hparts.2 (by decide)⟩

/-- A password that has the mark of a password in it. -/
def markInPassword : Account := { username := "bob", domain := "example.com", password := "x>;auth_pass=y" }

/-- A domain that has it instead. -/
def markInDomain : Account := { username := "bob", domain := "example.com>;auth_pass=x", password := "y" }

/-- Their lines are the same. -/
theorem line_shared_marks : ¬ ∀ a b : Account, a.check = .ok () → b.check = .ok () → a.line = b.line →
    SameFields a b := by
  intro h
  have hsame := h markInPassword markInDomain (by decide) (by decide) (by decide)
  exact absurd hsame.domain (by decide)

end Softphone.Account
