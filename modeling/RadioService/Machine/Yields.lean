import Mathlib.Data.List.Basic

/-!
# Logs that can be read in several ways

What an event comes to is not always settled by the event: a call that reports an
error may have done its work or not.  A log then has several readings, and what
holds of each event's readings is carried to the log's.
-/

namespace Machine

variable {ε ε' β : Type*}

/-- `ys` is what the events of a log may have come to, one behind the other. -/
def Yields (may : ε → List β → Prop) : List ε → List β → Prop
  | [], ys => ys = []
  | e :: es, ys => ∃ zs zs', ys = zs ++ zs' ∧ may e zs ∧ Yields may es zs'

namespace Yields

variable {may : ε → List β → Prop} {es es' : List ε} {ys : List β}

theorem of_append (h : Yields may (es ++ es') ys) :
    ∃ zs zs', ys = zs ++ zs' ∧ Yields may es zs ∧ Yields may es' zs' := by
  induction es generalizing ys with
  | nil => exact ⟨[], ys, rfl, rfl, h⟩
  | cons e es ih =>
      obtain ⟨zs, rest, rfl, hzs, hrest⟩ := h
      obtain ⟨us, us', rfl, hus, hus'⟩ := ih hrest
      exact ⟨zs ++ us, us', (List.append_assoc _ _ _).symm, ⟨zs, us, rfl, hzs, hus⟩, hus'⟩

theorem of_cons {e : ε} (h : Yields may (e :: es) ys) :
    ∃ zs zs', ys = zs ++ zs' ∧ may e zs ∧ Yields may es zs' := h

/-- Events that never come to anything. -/
theorem eq_nil (h : Yields may es ys) (hes : ∀ e ∈ es, ∀ zs, may e zs → zs = []) : ys = [] := by
  induction es generalizing ys with
  | nil => exact h
  | cons e es ih =>
      obtain ⟨hhead, htail⟩ := List.forall_mem_cons.mp hes
      obtain ⟨zs, zs', rfl, hzs, hzs'⟩ := h
      rw [hhead zs hzs, ih hzs' htail, List.append_nil]

/-- What a log has come to, one of its events has. -/
theorem exists_of_mem (h : Yields may es ys) {y : β} (hy : y ∈ ys) :
    ∃ e ∈ es, ∃ zs, may e zs ∧ y ∈ zs := by
  induction es generalizing ys with
  | nil =>
      rw [show ys = [] from h] at hy
      cases hy
  | cons e es ih =>
      obtain ⟨zs, zs', rfl, hzs, hzs'⟩ := h
      rcases List.mem_append.mp hy with hy | hy
      · exact ⟨e, List.mem_cons_self, zs, hzs, hy⟩
      · obtain ⟨e', he', hrest⟩ := ih hzs' hy
        exact ⟨e', List.mem_cons_of_mem e he', hrest⟩

/-- The events that count among others that never come to anything. -/
theorem of_between {mid : List ε} (h : Yields may (es ++ mid ++ es') ys)
    (hes : ∀ e ∈ es, ∀ zs, may e zs → zs = []) (hes' : ∀ e ∈ es', ∀ zs, may e zs → zs = []) :
    Yields may mid ys := by
  obtain ⟨zs, zs', rfl, hzs, hzs'⟩ := of_append h
  obtain ⟨us, us', rfl, hus, hus'⟩ := of_append hzs
  rw [eq_nil hus hes, eq_nil hzs' hes', List.nil_append, List.append_nil]
  exact hus'

/-- One reading of every event. -/
theorem of_flatMap {f : ε → List β} (hf : ∀ e, may e (f e)) (es : List ε) :
    Yields may es (es.flatMap f) := by
  induction es with
  | nil => rfl
  | cons e es ih => exact ⟨f e, es.flatMap f, List.flatMap_cons, hf e, ih⟩

/-- Events that may come to nothing can be put back. -/
theorem of_filterMap {f : ε → Option ε'} {may' : ε' → List β → Prop}
    (hnone : ∀ e, f e = none → may e []) (hsome : ∀ e e' zs, f e = some e' → may' e' zs → may e zs)
    (h : Yields may' (es.filterMap f) ys) : Yields may es ys := by
  induction es generalizing ys with
  | nil => exact h
  | cons e es ih =>
      cases hfe : f e with
      | none =>
          rw [List.filterMap_cons_none hfe] at h
          exact ⟨[], ys, rfl, hnone e hfe, ih h⟩
      | some e' =>
          rw [List.filterMap_cons_some hfe] at h
          obtain ⟨zs, zs', rfl, hzs, hzs'⟩ := h
          exact ⟨zs, zs', rfl, hsome e e' zs hfe hzs, ih hzs'⟩

end Yields

end Machine
