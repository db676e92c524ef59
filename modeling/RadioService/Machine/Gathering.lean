import Mathlib.Data.List.Nodup
import RadioService.Machine.Runs

/-!
# Gathering blocks from their parts

Parts arrive one after the other, each with the key of the block it belongs to.
The gatherer holds one block at a time: a part of another block makes it give
up what it has.  A block is put out when it is whole, once.

If the sender sends block after block, then whatever is lost on the way, and
however often a part comes, the blocks put out are those that arrive whole.
-/

namespace Machine

variable {κ α β γ : Type*}

/-- The block that is being gathered: its parts so far, and whether it has been
put out. -/
structure Gathering (κ α : Type*) where
  key : κ
  parts : List α
  done : Bool

namespace Gathering

def fresh (k : κ) : Gathering κ α := ⟨k, [], false⟩

variable [DecidableEq κ]

/-- What a part of block `k` is added to. -/
def resume (k : κ) : Option (Gathering κ α) → Gathering κ α
  | some g => if g.key = k then g else fresh k
  | none => fresh k

@[simp] theorem resume_self (g : Gathering κ α) : resume g.key (some g) = g := if_pos rfl

theorem resume_other {k : κ} {g : Gathering κ α} (h : g.key ≠ k) :
    resume k (some g) = fresh k := if_neg h

end Gathering

open Gathering

/-- The parts of block `k`, one after the other. -/
def block (k : κ) (xs : List α) : List (κ × α) := xs.map (k, ·)

/-- Enough parts are still enough with more of them. -/
theorem whole_append {whole : κ → List α → Bool}
    (hmono : ∀ k xs a, whole k xs = true → whole k (xs ++ [a]) = true) {k : κ} {xs : List α}
    (h : whole k xs = true) (ys : List α) : whole k (xs ++ ys) = true := by
  induction ys generalizing xs with
  | nil => rwa [List.append_nil]
  | cons a ys ih =>
      have hnext := ih (hmono k xs a h)
      rwa [List.append_assoc, List.singleton_append] at hnext

section

variable [DecidableEq κ]

def gather (whole : κ → List α → Bool) : Step (Option (Gathering κ α)) (κ × α) (κ × List α)
  | s, (k, a) =>
    let g := resume k s
    let parts := g.parts ++ [a]
    if !g.done && whole k parts then
      (some ⟨k, parts, true⟩, [(k, parts)])
    else
      (some ⟨k, parts, g.done⟩, [])

/-- The parts of block `k` among those that have come. -/
def partsOf (k : κ) (items : List (κ × α)) : List α :=
  items.filterMap fun p ↦ if p.1 = k then some p.2 else none

theorem mem_partsOf {k : κ} {items : List (κ × α)} {a : α} :
    a ∈ partsOf k items ↔ (k, a) ∈ items := by
  rw [partsOf, List.mem_filterMap]
  constructor
  · rintro ⟨⟨k', a'⟩, hp, hpart⟩
    obtain ⟨rfl, rfl⟩ := Option.ite_some_none_eq_some.mp hpart
    exact hp
  · exact fun hp ↦ ⟨(k, a), hp, if_pos rfl⟩

theorem partsOf_append (k : κ) (xs ys : List (κ × α)) :
    partsOf k (xs ++ ys) = partsOf k xs ++ partsOf k ys := List.filterMap_append

theorem partsOf_block_self (k : κ) (xs : List α) : partsOf k (block k xs) = xs := by
  simp [partsOf, block, List.filterMap_map]

theorem partsOf_eq_nil {k : κ} {items : List (κ × α)} (h : ∀ p ∈ items, p.1 ≠ k) :
    partsOf k items = [] :=
  List.filterMap_eq_nil_iff.mpr fun p hp ↦ if_neg (h p hp)

variable {whole : κ → List α → Bool}

/-! ## One block -/

theorem gather_key (whole : κ → List α → Bool) (s : Option (Gathering κ α)) (k : κ) (a : α) :
    ∃ g, (gather whole s (k, a)).1 = some g ∧ g.key = k := by
  unfold gather
  dsimp only
  split <;> exact ⟨_, rfl, rfl⟩

/-- The parts of one block leave the others to be begun anew. -/
theorem resume_run_other {s : Option (Gathering κ α)} {k k' : κ} (hne : k ≠ k')
    (hs : resume k' s = fresh k') (xs : List α) :
    resume k' (run (gather whole) s (block k xs)).1 = fresh k' := by
  induction xs generalizing s with
  | nil => exact hs
  | cons a xs ih =>
      refine ih ?_
      obtain ⟨g, hg, hkey⟩ := gather_key whole s k a
      rw [hg]
      exact resume_other (hkey.trans_ne hne)

/-- Behind a block that has been put out, its further parts put out nothing. -/
theorem gather_done {s : Option (Gathering κ α)} {k : κ} {xs : List α}
    (hs : resume k s = ⟨k, xs, true⟩) (ys : List α) :
    (run (gather whole) s (block k ys)).2 = [] := by
  induction ys generalizing s xs with
  | nil => rfl
  | cons a ys ih =>
      have hstep : gather whole s (k, a) = (some ⟨k, xs ++ [a], true⟩, []) := by
        simp [gather, hs]
      have hrest : (run (gather whole) (some ⟨k, xs ++ [a], true⟩) (block k ys)).2 = [] :=
        ih (if_pos rfl)
      change (run (gather whole) s ((k, a) :: block k ys)).2 = []
      rw [run_cons, hstep]
      exact hrest

section

variable (hmono : ∀ k xs a, whole k xs = true → whole k (xs ++ [a]) = true)

include hmono

/-- A block that is not whole yet is put out, from the parts that make it so,
exactly if its further parts make it whole. -/
theorem gather_block {s : Option (Gathering κ α)} {k : κ} {xs : List α}
    (hs : resume k s = ⟨k, xs, false⟩) (hnot : whole k xs = false) (ys : List α) :
    if whole k (xs ++ ys) then
      ∃ zs, zs <+: xs ++ ys ∧ whole k zs = true ∧
        (run (gather whole) s (block k ys)).2 = [(k, zs)]
    else (run (gather whole) s (block k ys)).2 = [] := by
  induction ys generalizing s xs with
  | nil =>
      rw [List.append_nil, hnot]
      rfl
  | cons a ys ih =>
      change if _ then ∃ zs, _ ∧ _ ∧ (run (gather whole) s ((k, a) :: block k ys)).2 = _
        else (run (gather whole) s ((k, a) :: block k ys)).2 = _
      have hsplit : xs ++ a :: ys = (xs ++ [a]) ++ ys := by simp
      rw [hsplit]
      cases hwhole : whole k (xs ++ [a]) with
      | true =>
          have hstep : gather whole s (k, a) =
              (some ⟨k, xs ++ [a], true⟩, [(k, xs ++ [a])]) := by
            simp [gather, hs, hwhole]
          have hrest : (run (gather whole) (some ⟨k, xs ++ [a], true⟩) (block k ys)).2 = [] :=
            gather_done (resume_self ⟨k, xs ++ [a], true⟩) ys
          rw [if_pos (whole_append hmono hwhole ys), run_cons, hstep, hrest]
          exact ⟨xs ++ [a], List.prefix_append _ _, hwhole, rfl⟩
      | false =>
          have hstep : gather whole s (k, a) = (some ⟨k, xs ++ [a], false⟩, []) := by
            simp [gather, hs, hwhole]
          rw [run_cons, hstep, List.nil_append]
          exact ih (s := some ⟨k, xs ++ [a], false⟩) (resume_self _) hwhole

/-! ## Block after block -/

/-- Of blocks sent one after the other, with different keys, those are put out
that arrive whole, in order and once each: whatever parts are lost, and however
often a part comes.  Each shows what it was, if enough parts of it always do. -/
theorem gather_heard (key : β → κ) (parts : β → List α) (f : κ → List α → γ) (v : β → γ)
    {bs : List β} (hkeys : (bs.map key).Nodup) (hempty : ∀ b ∈ bs, whole (key b) [] = false)
    (hf : ∀ b ∈ bs, ∀ zs, zs.Sublist (parts b) → whole (key b) zs = true → f (key b) zs = v b)
    {heard : List (κ × α)}
    (hheard : heard.Sublist (bs.flatMap fun b ↦ block (key b) (parts b)))
    {s : Option (Gathering κ α)} (hs : ∀ b ∈ bs, resume (key b) s = fresh (key b)) :
    (run (gather whole) s heard).2.map (fun p ↦ f p.1 p.2) =
      (bs.filter fun b ↦ whole (key b) (partsOf (key b) heard)).map v := by
  induction bs generalizing s heard with
  | nil =>
      cases List.sublist_nil.mp hheard
      rfl
  | cons b bs ih =>
      rw [List.map_cons, List.nodup_cons] at hkeys
      rw [List.flatMap_cons, List.sublist_append_iff] at hheard
      obtain ⟨head, rest, rfl, hhead, hrest⟩ := hheard
      obtain ⟨zs, hzs, rfl⟩ := List.sublist_map_iff.mp hhead
      have hother : ∀ b' ∈ bs, key b ≠ key b' := by
        intro b' hb' hk
        exact hkeys.1 (List.mem_map.mpr ⟨b', hb', hk.symm⟩)
      have hforeign : ∀ p ∈ rest, p.1 ≠ key b := by
        intro p hp hk
        obtain ⟨b', hb', hpb⟩ := List.mem_flatMap.mp (hrest.subset hp)
        obtain ⟨a, -, rfl⟩ := List.mem_map.mp hpb
        exact hother b' hb' hk.symm
      have hparts : partsOf (key b) (block (key b) zs ++ rest) = zs := by
        rw [partsOf_append, partsOf_block_self, partsOf_eq_nil hforeign, List.append_nil]
      have hfilter : (bs.filter fun b' ↦
          whole (key b') (partsOf (key b') (block (key b) zs ++ rest))) =
            bs.filter fun b' ↦ whole (key b') (partsOf (key b') rest) := by
        refine List.filter_congr fun b' hb' ↦ ?_
        have hnone : partsOf (key b') (block (key b) zs) = [] := by
          refine partsOf_eq_nil fun p hp ↦ ?_
          obtain ⟨a, -, rfl⟩ := List.mem_map.mp hp
          exact hother b' hb'
        rw [partsOf_append, hnone, List.nil_append]
      have htail := ih hkeys.2 (fun b' hb' ↦ hempty b' (List.mem_cons_of_mem b hb'))
        (fun b' hb' ↦ hf b' (List.mem_cons_of_mem b hb')) hrest
        (s := (run (gather whole) s (block (key b) zs)).1) fun b' hb' ↦
          resume_run_other (hother b' hb') (hs b' (List.mem_cons_of_mem b hb')) zs
      have hfirst := gather_block hmono (hs b List.mem_cons_self)
        (hempty b List.mem_cons_self) zs
      change (run (gather whole) s (block (key b) zs ++ rest)).2.map _ =
        (List.filter (fun b' ↦ whole (key b') (partsOf (key b') (block (key b) zs ++ rest)))
          (b :: bs)).map v
      rw [run_append, List.map_append, htail, List.filter_cons, hparts, hfilter]
      cases hwhole : whole (key b) zs with
      | true =>
          rw [List.nil_append, hwhole, if_pos rfl] at hfirst
          obtain ⟨ps, hps, hwhole', hout⟩ := hfirst
          have hshow := hf b List.mem_cons_self ps (hps.sublist.trans hzs) hwhole'
          rw [hout, if_pos rfl, List.map_cons, List.map_cons, List.map_nil, hshow]
          rfl
      | false =>
          rw [List.nil_append, hwhole, if_neg Bool.false_ne_true] at hfirst
          rw [hfirst, if_neg Bool.false_ne_true]
          rfl

/-- Where no part is lost, keys may come again: it is enough that each block has
another key than the one in front of it. -/
theorem gather_blocks (key : β → κ) (parts : β → List α) (f : κ → List α → γ) (v : β → γ)
    {bs : List β} (hkeys : bs.IsChain fun b b' ↦ key b ≠ key b')
    (hempty : ∀ b ∈ bs, whole (key b) [] = false)
    (hwhole : ∀ b ∈ bs, whole (key b) (parts b) = true)
    (hf : ∀ b ∈ bs, ∀ zs, zs.Sublist (parts b) → whole (key b) zs = true → f (key b) zs = v b)
    {s : Option (Gathering κ α)} (hs : ∀ b ∈ bs.head?, resume (key b) s = fresh (key b)) :
    (run (gather whole) s (bs.flatMap fun b ↦ block (key b) (parts b))).2.map
      (fun p ↦ f p.1 p.2) = bs.map v := by
  induction bs generalizing s with
  | nil => rfl
  | cons b bs ih =>
      have hb : resume (key b) s = fresh (key b) := hs b rfl
      have hnext : ∀ b' ∈ bs.head?,
          resume (key b') (run (gather whole) s (block (key b) (parts b))).1 = fresh (key b') := by
        intro b' hb'
        have hne : key b ≠ key b' := hkeys.rel_head? hb'
        have hsome := hwhole b List.mem_cons_self
        cases hparts : parts b with
        | nil =>
            rw [hparts, hempty b List.mem_cons_self] at hsome
            cases hsome
        | cons a rest =>
            obtain ⟨g, hg, hkey⟩ := gather_key whole s (key b) a
            refine resume_run_other hne ?_ rest
            rw [hg]
            exact resume_other (hkey.trans_ne hne)
      have hfirst := gather_block hmono hb (hempty b List.mem_cons_self) (parts b)
      rw [List.nil_append, if_pos (hwhole b List.mem_cons_self)] at hfirst
      obtain ⟨zs, hzs, hzswhole, hout⟩ := hfirst
      have hshow := hf b List.mem_cons_self zs hzs.sublist hzswhole
      have htail := ih hkeys.tail (fun b' hb' ↦ hempty b' (List.mem_cons_of_mem b hb'))
        (fun b' hb' ↦ hwhole b' (List.mem_cons_of_mem b hb'))
        (fun b' hb' ↦ hf b' (List.mem_cons_of_mem b hb')) hnext
      rw [List.flatMap_cons, run_append, List.map_append, hout, htail, List.map_cons,
        List.map_nil, hshow]
      rfl

end

end

end Machine
