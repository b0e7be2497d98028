import Softphone.Host
import Softphone.Proofs.Since

/-!
# Traces

The trace of a world only grows. `World.since` gives the effects that came after an earlier world.
-/

namespace Softphone.World

variable {σ : Type} {w w' : World σ} {es : List Effect}

/-- The effects since an earlier world, the first effect first. -/
def since (w earlier : World σ) : List Effect := w.trace.drop earlier.trace.length

theorem since_eq (h : w'.trace = w.trace ++ es) : w'.since w = es := by
  rw [since, h, List.drop_left]

@[simp] theorem since_self : w.since w = [] := since_eq (List.append_nil _).symm

/-- The same trace over another state of the host. -/
def within (w : World σ) (host : σ) : World σ := { w with host }

@[simp] theorem trace_within {host : σ} : (w.within host).trace = w.trace := rfl

@[simp] theorem trace_moveTo {host : σ} {e : Effect} : (w.moveTo host e).trace = w.trace ++ [e] :=
  List.reverse_cons

section Engine

variable [Engine σ] {a : Address} {name : String} {servers : List Endpoint}

@[simp] theorem trace_allocateCall {agent : AgentHandle} :
    (w.allocateCall agent).2.trace =
      w.trace ++ [.allocateCall agent (w.allocateCall agent).1] :=
  trace_moveTo

@[simp] theorem trace_connect {call : CallHandle} {target : String} :
    (w.connect call target).2.trace =
      w.trace ++ [.connect call target (w.connect call target).1] :=
  trace_moveTo

@[simp] theorem trace_addAddress :
    (w.addAddress a name).2.trace = w.trace ++ [.addAddress a name (w.addAddress a name).1] :=
  trace_moveTo

@[simp] theorem trace_removeAddress :
    (w.removeAddress a).2.trace = w.trace ++ [.removeAddress a (w.removeAddress a).1] :=
  trace_moveTo

@[simp] theorem trace_setResolvers :
    (w.setResolvers servers).2.trace = w.trace ++ [.setResolvers servers (w.setResolvers servers).1] :=
  trace_moveTo

theorem trace_resetTransport :
    w.resetTransport.trace =
      w.trace ++ [.resetTransport true true (Engine.resetTransport true true w.host).1] :=
  trace_moveTo

end Engine

@[simp] theorem trace_stamp [StampSource σ] : w.stamp.2.trace = w.trace := rfl

section Connectivity

variable [Connectivity σ]

@[simp] theorem trace_acquireLock : w.acquireLock.trace = w.trace ++ [.acquireLock] := trace_moveTo

@[simp] theorem trace_releaseLock : w.releaseLock.trace = w.trace ++ [.releaseLock] := trace_moveTo

end Connectivity

/-! ## Growth -/

/-- A later world. Every effect that has come since has a property; the host may have changed by itself
as well. -/
inductive Grows (p : Effect → Prop) (w : World σ) : World σ → Prop
  | refl : Grows p w w
  | within {w' : World σ} (h : Grows p w w') (host : σ) : Grows p w (w'.within host)
  | moveTo {w' : World σ} (h : Grows p w w') {host : σ} {e : Effect} (he : p e) :
    Grows p w (w'.moveTo host e)

namespace Grows

variable {p q : Effect → Prop} {w'' : World σ}

theorem step {host : σ} {e : Effect} (he : p e) : w.Grows p (w.moveTo host e) := .moveTo .refl he

theorem note (h : w.Grows p w') {e : Effect} (he : p e) : w.Grows p (w'.note e) := h.moveTo he

theorem trans (h : w.Grows p w') (h' : w'.Grows p w'') : w.Grows p w'' := by
  induction h' with
  | refl => exact h
  | within _ host ih => exact ih.within host
  | moveTo _ he ih => exact ih.moveTo he

theorem mono (h : w.Grows p w') (hpq : ∀ e, p e → q e) : w.Grows q w' := by
  induction h with
  | refl => exact .refl
  | within _ host ih => exact ih.within host
  | moveTo _ he ih => exact ih.moveTo (hpq _ he)

theorem exists_trace (h : w.Grows p w') : ∃ es, w'.trace = w.trace ++ es ∧ ∀ e ∈ es, p e := by
  induction h with
  | refl => exact ⟨[], (List.append_nil _).symm, List.forall_mem_nil _⟩
  | within _ host ih => exact ih
  | moveTo _ he ih =>
    obtain ⟨es, htrace, hes⟩ := ih
    refine ⟨es ++ [_], ?_, List.forall_mem_append.2 ⟨hes, List.forall_mem_singleton.2 he⟩⟩
    rw [trace_moveTo, htrace, List.append_assoc]

/-- A world whose trace goes on with such effects has grown by them. -/
theorem of_trace (htrace : w'.trace = w.trace ++ es) (hes : ∀ e ∈ es, p e) : w.Grows p w' := by
  induction es using List.reverseRecOn generalizing w' with
  | nil =>
    have hpast : w'.past = w.past := List.reverse_inj.1 (htrace.trans (List.append_nil _))
    obtain ⟨host, past⟩ := w'
    obtain rfl : past = w.past := hpast
    exact .within .refl host
  | append_singleton es e ih =>
    obtain ⟨hes, he⟩ := List.forall_mem_append.1 hes
    obtain ⟨host, past⟩ := w'
    have hpast : past = e :: (w.trace ++ es).reverse := by
      rw [← List.reverse_inj, List.reverse_cons, List.reverse_reverse, List.append_assoc]
      exact htrace
    subst hpast
    have hbefore : w.Grows p ⟨host, (w.trace ++ es).reverse⟩ := ih (List.reverse_reverse _) hes
    exact hbefore.moveTo (he e (List.mem_singleton_self e))

theorem of_mem_since (h : w.Grows p w') {e : Effect} (he : e ∈ w'.since w) : p e := by
  obtain ⟨es, htrace, hes⟩ := h.exists_trace
  rw [since_eq htrace] at he
  exact hes e he

theorem since_trans {w'' : World σ} (h : w.Grows p w') (h' : w'.Grows q w'') :
    w''.since w = w'.since w ++ w''.since w' := by
  obtain ⟨es, htrace, -⟩ := h.exists_trace
  obtain ⟨es', htrace', -⟩ := h'.exists_trace
  rw [since_eq htrace, since_eq htrace', since_eq]
  rw [htrace', htrace, List.append_assoc]

variable {needs : List Effect → Effect → Prop}

theorem eachAfter_of_later (h : w.Grows p w') (hlater : EachAfter needs w'.trace) :
    EachAfter needs w.trace := by
  obtain ⟨es, htrace, -⟩ := h.exists_trace
  rw [htrace] at hlater
  exact hlater.of_append

/-- Effects that find what they need in whatever came before them may come. -/
theorem eachAfter_iff (h : w.Grows p w') (hneeds : ∀ more e, p e → needs (w.trace ++ more) e) :
    EachAfter needs w'.trace ↔ EachAfter needs w.trace := by
  obtain ⟨es, htrace, hes⟩ := h.exists_trace
  rw [htrace]
  exact eachAfter_append_iff fun more e he => hneeds more e (hes e he)

end Grows

/-! ## Records -/

/-- What the effects of a trace tell, in order. -/
def record {α : Type} (f : Effect → Option α) (w : World σ) : List α := w.trace.filterMap f

theorem record_moveTo {α : Type} (f : Effect → Option α) (w : World σ) (host : σ) (e : Effect) :
    (w.moveTo host e).record f = w.record f ++ (f e).toList := by
  rw [record, trace_moveTo, List.filterMap_append, List.filterMap_cons, List.filterMap_nil]
  cases f e <;> rfl

theorem Grows.record {α : Type} {f : Effect → Option α} (h : w.Grows (f · = none) w') :
    w'.record f = w.record f := by
  obtain ⟨es, htrace, hes⟩ := h.exists_trace
  unfold World.record
  rw [htrace, List.filterMap_append, List.filterMap_eq_nil_iff.2 hes, List.append_nil]

/-- What the effects of a later world tell is what those before told, and what those since tell. -/
theorem Grows.record_since {α : Type} (h : w.Grows p w') (f : Effect → Option α) :
    w'.record f = w.record f ++ (w'.since w).filterMap f := by
  obtain ⟨es, htrace, -⟩ := h.exists_trace
  unfold World.record
  rw [since_eq htrace, htrace, List.filterMap_append]

/-! ## Replies -/

/-- The replies given so far, by the requests they answer. -/
def replies (w : World σ) : List (Ticket × Reply) := w.trace.filterMap Effect.reply?

theorem Grows.replies (h : w.Grows (·.reply? = none) w') : w'.replies = w.replies := h.record

theorem replies_reply (ticket : Ticket) (answer : Reply) :
    (w.reply ticket answer).replies = w.replies ++ [(ticket, answer)] :=
  record_moveTo Effect.reply? _ _ _

end Softphone.World
