import RadioService.IpcFifo

/-!
# The ring between two cores

One core runs `writeAll`, the other the read loop, and every `lseek` with the
`read` or `write` behind it is a step of its own.  The counters keep the two
apart as long as nothing overflows.  When the writer makes room it moves the
tail, which the reader moves too.
-/

namespace RadioService.Serial

open Bytes Blocks Rings Machine

/-! ## Steps -/

/-- Where the reader stands in a round of its loop. -/
inductive Reader where
  | idle
  /-- About to move the tail to the head. -/
  | discarding (head : UInt32)
  /-- The counters are read. -/
  | first (tail take : UInt32)
  /-- The bytes before the end of the ring are copied. -/
  | second (tail take : UInt32) (got : List UInt8)
  /-- All are copied, the tail is not moved. -/
  | advancing (tail take : UInt32) (got : List UInt8)
deriving DecidableEq

def Reader.stop : Reader → Option ℕ
  | .first tail take | .second tail take _ | .advancing tail take _ =>
    some (tail.toNat + take.toNat)
  | _ => none

/-- The positions whose bytes the reader has still to copy. -/
def Reader.ToCopy : Reader → ℕ → Prop
  | .first tail take, p => tail.toNat ≤ p ∧ p < tail.toNat + take.toNat
  | .second tail take got, p => tail.toNat + got.length ≤ p ∧ p < tail.toNat + take.toNat
  | _, _ => False

def FileWrite.Covers (x : FileWrite) (i : ℕ) : Prop := x.pos ≤ i ∧ i < x.pos + x.data.length

/-- The file, the writes that the writer has still to make, the reader, and all
bytes that `writeAll` has been called with. -/
structure Cores where
  file : Buffer
  writes : List FileWrite := []
  reader : Reader := .idle
  written : List UInt8 := []

inductive CoreOp where
  /-- A call of `writeAll`, up to its look at the counters. -/
  | begin (buf : List UInt8)
  | write
  /-- The reader's next step; a round begins with a buffer of `limit` bytes. -/
  | read (limit : UInt32)
deriving DecidableEq

def readStep (base : ℕ) (limit : UInt32) (s : Cores) : Cores × List UInt8 :=
  match s.reader with
  | .idle =>
    match readPlan (readHeader base s.file) limit with
    | .nothing => (s, [])
    | .discard head => ({ s with reader := .discarding head }, [])
    | .copy tail take => ({ s with reader := .first tail take }, [])
  | .discarding head => ({ s with file := (tailWrite base head).apply s.file, reader := .idle }, [])
  | .first tail take =>
    let got := copyFirst base tail take s.file
    if take > firstPart (tail % kIpcRingCap) take then
      ({ s with reader := .second tail take got }, [])
    else
      ({ s with reader := .advancing tail take got }, [])
  | .second tail take got =>
    ({ s with reader := .advancing tail take (got ++ copySecond base tail take s.file) }, [])
  | .advancing tail take got =>
    ({ s with file := (tailWrite base (tail + take)).apply s.file, reader := .idle }, got)

def coresStep (base : ℕ) : Step Cores CoreOp UInt8
  | s, .begin buf =>
    if s.writes = [] then
      ({ s with
          writes := writePlan base (readHeader base s.file) buf
          written := s.written ++ buf }, [])
    else
      (s, [])
  | s, .write =>
    match s.writes with
    | [] => (s, [])
    | x :: rest => ({ s with file := x.apply s.file, writes := rest }, [])
  | s, .read limit => readStep base limit s

def Cores.ring (base : ℕ) (s : Cores) : Ring := Ring.ofFile base s.file

/-! ## Races -/

/-- The writer keeps off what the reader works on.  When it makes room, the
reader is not past the new tail and ends its round at or behind it, and no block
covers a byte that the reader has still to copy. -/
def Raceless (base : ℕ) (s : Cores) : CoreOp → Prop
  | .begin buf => buf.length ≤ 65520
  | .write => ∀ x ∈ s.writes.head?,
    (∀ tail, x = tailWrite base tail →
      (s.ring base).tail ≤ tail ∧ ∀ e ∈ s.reader.stop, tail.toNat ≤ e) ∧
    ∀ p, s.reader.ToCopy p → ¬x.Covers (base + 16 + p % 65520)
  | .read _ => True

/-! ## What the cores know of the stream -/

/-- These writes put the stream from position `p` on into the ring. -/
inductive Placing (base : ℕ) (ws : List UInt8) : ℕ → List FileWrite → Prop
  | done : Placing base ws ws.length []
  | next {p : ℕ} {x : FileWrite} {xs : List FileWrite} (hpos : x.pos = base + 16 + p % 65520)
      (hblock : p % 65520 + x.data.length ≤ 65520)
      (hdata : x.data = (ws.drop p).take x.data.length)
      (hxs : Placing base ws (p + x.data.length) xs) : Placing base ws p (x :: xs)

/-- The writes left to a writer that has put the stream into the ring up to `m`. -/
inductive Writing (base : ℕ) (ws : List UInt8) (tail head : ℕ) : ℕ → List FileWrite → Prop
  | idle (hhead : head = ws.length) : Writing base ws tail head ws.length []
  | room {t v : UInt32} {xs : List FileWrite} (ht : t.toNat + 65520 = ws.length)
      (hhead : ws.length ≤ head + 65520) (hv : v.toNat = ws.length)
      (hxs : Placing base ws head xs) :
      Writing base ws tail head head (tailWrite base t :: (xs ++ [headWrite base v]))
  | data {m : ℕ} {v : UInt32} {xs : List FileWrite} (hroom : ws.length ≤ tail + 65520)
      (hv : v.toNat = ws.length) (hxs : Placing base ws m xs) :
      Writing base ws tail head m (xs ++ [headWrite base v])

/-- A reader that has copied `got` of `take` bytes from position `start` on. -/
structure Copied (r : Ring) (ws out : List UInt8) (start take : ℕ) (got : List UInt8) : Prop where
  stop : r.tail.toNat ≤ start + take
  ahead : start + take ≤ r.head.toNat
  small : take ≤ 65520
  part : got.length ≤ take
  copied : got = (ws.drop start).take got.length
  rest : Stores r.cells 65520 ws (start + got.length) (start + take)
  out : out.Sublist (ws.take start)

def Reading (r : Ring) (ws out : List UInt8) : Reader → Prop
  | .idle => out.Sublist (ws.take r.tail.toNat)
  | .discarding _ => False
  | .first tail take => Copied r ws out tail.toNat take.toNat []
  | .second tail take got => Copied r ws out tail.toNat take.toNat got ∧
    got.length = (firstPart (tail % kIpcRingCap) take).toNat
  | .advancing tail take got => Copied r ws out tail.toNat take.toNat got ∧
    got.length = take.toNat

/-- The ring holds the stream from the tail up to `m`; what is before the tail is
read or lost, what is behind `m` is still to be written. -/
structure Coherent (r : Ring) (base : ℕ) (s : Cores) (out : List UInt8) (m : ℕ) : Prop where
  ring : s.ring base = r
  tail : r.tail.toNat ≤ r.head.toNat
  head : r.head.toNat ≤ m
  most : m ≤ s.written.length
  room : m ≤ r.tail.toNat + 65520
  stores : Stores r.cells 65520 s.written r.tail.toNat m
  writing : Writing base s.written r.tail.toNat r.head.toNat m s.writes
  reading : Reading r s.written out s.reader

/-! ## The writer -/

theorem placing_dataWrites {base : ℕ} {ws buf : List UInt8} {head : UInt32}
    (hlen : buf.length ≤ 65520) (hhead : head.toNat = ws.length) :
    Placing base (ws ++ buf) head.toNat (dataWrites base head buf) := by
  have hn := length_toUInt32 hlen
  have hoff : head.toNat % 65520 < 65520 := Nat.mod_lt _ (by decide)
  have hfirst := firstPart_length head hlen
  have hdrop : (ws ++ buf).drop head.toNat = buf := List.drop_left' hhead.symm
  unfold dataWrites
  simp only [gt_iff_lt, UInt32.lt_iff_toNat_lt, hn]
  generalize firstPart (head % kIpcRingCap) (UInt32.ofNat buf.length) = first at hfirst ⊢
  have htake : (buf.take first.toNat).length = first.toNat := by
    rw [List.length_take]
    omega
  refine .next rfl ?_ ?_ ?_
  · rw [htake]
    omega
  · rw [hdrop, htake]
  · rw [htake]
    split
    · have hround : (head.toNat + first.toNat) % 65520 = 0 := by omega
      rw [take_rest hlen (by omega)]
      refine .next (by rw [hround]) ?_ ?_ ?_
      · rw [hround, List.length_drop]
        omega
      · rw [← List.drop_drop, hdrop, List.take_of_length_le (by exact le_rfl)]
      · have hend : head.toNat + first.toNat + (buf.drop first.toNat).length =
            (ws ++ buf).length := by
          rw [List.length_drop, List.length_append]
          omega
        rw [hend]
        exact .done
    · have hend : head.toNat + first.toNat = (ws ++ buf).length := by
        rw [List.length_append]
        omega
      rw [hend]
      exact .done

theorem Placing.le {base : ℕ} {ws : List UInt8} {p : ℕ} {xs : List FileWrite}
    (h : Placing base ws p xs) : p ≤ ws.length := by
  induction h with
  | done => exact le_rfl
  | next _ _ _ _ ih => omega

namespace Writing

variable {base : ℕ} {ws : List UInt8} {tail head m : ℕ}

theorem nil_inv (h : Writing base ws tail head m []) : m = ws.length ∧ head = ws.length := by
  generalize hxs : ([] : List FileWrite) = xs at h
  cases h with
  | idle hhead => exact ⟨rfl, hhead⟩
  | room => cases hxs
  | data => simp at hxs

/-- The next write makes room, publishes the head or puts a block in its place. -/
theorem cons_inv {x : FileWrite} {xs : List FileWrite} (h : Writing base ws tail head m (x :: xs)) :
    (∃ t, x = tailWrite base t ∧ m = head ∧ t.toNat + 65520 = ws.length ∧
        ws.length ≤ head + 65520 ∧
        ∀ tail', ws.length ≤ tail' + 65520 → Writing base ws tail' head m xs) ∨
      (∃ v, x = headWrite base v ∧ xs = [] ∧ v.toNat = ws.length ∧ m = ws.length) ∨
      (x.pos = base + 16 + m % 65520 ∧ m % 65520 + x.data.length ≤ 65520 ∧
        x.data = (ws.drop m).take x.data.length ∧ ws.length ≤ tail + 65520 ∧
        m + x.data.length ≤ ws.length ∧ Writing base ws tail head (m + x.data.length) xs) := by
  generalize hxs : x :: xs = ys at h
  cases h with
  | idle => cases hxs
  | @room t v zs ht hhead hv hzs =>
      cases hxs
      exact .inl ⟨t, rfl, rfl, ht, hhead, fun tail' hroom ↦ .data hroom hv hzs⟩
  | @data _ v zs hroom hv hzs =>
      cases hzs with
      | done =>
          cases hxs
          exact .inr (.inl ⟨v, rfl, rfl, hv, rfl⟩)
      | next hpos hblock hdata hrest =>
          cases hxs
          exact .inr (.inr ⟨hpos, hblock, hdata, hroom, hrest.le, .data hroom hv hrest⟩)

theorem advance (h : Writing base ws tail head m xs) {tail' : ℕ} (hle : tail ≤ tail') :
    Writing base ws tail' head m xs := by
  cases h with
  | idle hhead => exact .idle hhead
  | room ht hhead hv hxs => exact .room ht hhead hv hxs
  | data hroom hv hxs => exact .data (by omega) hv hxs

end Writing

/-! ## The reader -/

section

variable {r r' : Ring} {ws out : List UInt8} {reader : Reader}

theorem Reading.stop (h : Reading r ws out reader) {e : ℕ} (he : e ∈ reader.stop) :
    r.tail.toNat ≤ e := by
  cases reader with
  | idle | discarding => cases he
  | first =>
      cases he
      exact Copied.stop h
  | second | advancing =>
      cases he
      exact h.1.stop

/-- The writer makes room in front of the reader, publishes bytes behind it and
puts blocks beside it. -/
theorem Reading.mono (h : Reading r ws out reader) (htail : r.tail.toNat ≤ r'.tail.toNat)
    (hstop : ∀ e ∈ reader.stop, r'.tail.toNat ≤ e) (hhead : r.head.toNat ≤ r'.head.toNat)
    (hcells : ∀ p, reader.ToCopy p → r.cells (p % 65520) = r'.cells (p % 65520)) :
    Reading r' ws out reader := by
  cases reader with
  | idle => exact List.Sublist.trans h (List.take_sublist_take_left htail)
  | discarding => exact h
  | first tail take =>
      exact ⟨hstop _ rfl, h.ahead.trans hhead, h.small, h.part, h.copied, h.rest.congr hcells,
        h.out⟩
  | second tail take got =>
      obtain ⟨hcopied, hlen⟩ := h
      exact ⟨⟨hstop _ rfl, hcopied.ahead.trans hhead, hcopied.small, hcopied.part,
        hcopied.copied, hcopied.rest.congr hcells, hcopied.out⟩, hlen⟩
  | advancing tail take got =>
      obtain ⟨hcopied, hlen⟩ := h
      refine ⟨⟨hstop _ rfl, hcopied.ahead.trans hhead, hcopied.small, hcopied.part,
        hcopied.copied, ?_, hcopied.out⟩, hlen⟩
      rw [hlen]
      exact Stores.refl _ _ _ _

theorem Copied.append {start take : ℕ} {got : List UInt8} (h : Copied r ws out start take got)
    (hhead : r.head.toNat ≤ ws.length) (buf : List UInt8) :
    Copied r (ws ++ buf) out start take got := by
  obtain ⟨hstop, hahead, hsmall, hpart, hcopied, hrest, hout⟩ := h
  refine ⟨hstop, hahead, hsmall, hpart, ?_, hrest.append (by omega) buf, ?_⟩
  · rw [List.drop_append_of_le_length (by omega),
      List.take_append_of_le_length (by rw [List.length_drop]; omega)]
    exact hcopied
  · rwa [List.take_append_of_le_length (by omega)]

theorem Reading.append (h : Reading r ws out reader) (htail : r.tail.toNat ≤ r.head.toNat)
    (hhead : r.head.toNat ≤ ws.length) (buf : List UInt8) :
    Reading r (ws ++ buf) out reader := by
  cases reader with
  | idle =>
      change out.Sublist _
      rw [List.take_append_of_le_length (by omega)]
      exact h
  | discarding => exact h
  | first => exact Copied.append h hhead buf
  | second | advancing => exact ⟨h.1.append hhead buf, h.2⟩

end

/-! ## Steps of both -/

section

variable {r : Ring} {base : ℕ} {s : Cores} {out : List UInt8} {m : ℕ}

theorem Coherent.begin (h : Coherent r base s out m) (hidle : s.writes = []) {buf : List UInt8}
    (hlen : buf.length ≤ 65520) (htotal : (s.written ++ buf).length < 2 ^ 32) :
    Coherent r base { s with
      writes := writePlan base (readHeader base s.file) buf
      written := s.written ++ buf } out m := by
  obtain ⟨hring, htail, hhead, hmost, hroom, hstores, hwriting, hreading⟩ := h
  rw [hidle] at hwriting
  obtain ⟨hm, hend⟩ := hwriting.nil_inv
  have hn := length_toUInt32 hlen
  have hused : r.used = r.head.toNat - r.tail.toNat := Ring.used_of_le htail
  have hplacing : Placing base (s.written ++ buf) r.head.toNat (dataWrites base r.head buf) :=
    placing_dataWrites hlen hend
  have hnext : (r.head + UInt32.ofNat buf.length).toNat = (s.written ++ buf).length := by
    rw [List.length_append] at htotal ⊢
    rw [UInt32.toNat_add, hn, hend]
    omega
  have hheader : readHeader base s.file = ⟨r.head, r.tail⟩ := by
    rw [← hring]
    rfl
  refine ⟨hring, htail, hhead, ?_, hroom, hstores.append hmost buf, ?_,
    hreading.append htail hend.le buf⟩
  · exact hmost.trans (List.length_append ▸ Nat.le_add_right _ _)
  · rw [hheader, writePlan, makeRoom_eq (by omega) hlen]
    rw [List.length_append] at hnext
    by_cases hfull : r.used + buf.length > 65520
    · rw [if_pos hfull, hm, ← hend]
      refine .room ?_ ?_ (hnext.trans List.length_append.symm) hplacing
      · have hsmall : UInt32.ofNat buf.length ≤ kIpcRingCap := by
          rw [UInt32.le_iff_toNat_le, hn]
          exact hlen
        have hroomNat : (kIpcRingCap - UInt32.ofNat buf.length).toNat = 65520 - buf.length := by
          rw [UInt32.toNat_sub_of_le _ _ hsmall, hn, kIpcRingCap_toNat]
        have hback : kIpcRingCap - UInt32.ofNat buf.length ≤ r.head := by
          rw [UInt32.le_iff_toNat_le, hroomNat]
          omega
        rw [UInt32.toNat_sub_of_le _ _ hback, hroomNat, List.length_append]
        omega
      · rw [List.length_append]
        omega
    · rw [if_neg hfull, hm, ← hend]
      refine .data ?_ (hnext.trans List.length_append.symm) hplacing
      rw [List.length_append]
      omega

theorem Coherent.write (h : Coherent r base s out m) {x : FileWrite} {rest : List FileWrite}
    (hwrites : s.writes = x :: rest)
    (hroom : ∀ tail, x = tailWrite base tail → r.tail ≤ tail ∧
      ∀ e ∈ s.reader.stop, tail.toNat ≤ e)
    (hcovers : ∀ p, s.reader.ToCopy p → ¬x.Covers (base + 16 + p % 65520)) :
    ∃ r' m', r.tail ≤ r'.tail ∧
      Coherent r' base { s with file := x.apply s.file, writes := rest } out m' := by
  obtain ⟨hring, htail, hhead, hmost, hfit, hstores, hwriting, hreading⟩ := h
  have hfile : Ring.ofFile base s.file = r := hring
  rw [hwrites] at hwriting
  rcases hwriting.cons_inv with ⟨t, rfl, rfl, ht, hnear, hafter⟩ | ⟨v, rfl, rfl, hv, rfl⟩ |
    ⟨hpos, hblock, hdata, hspace, hend, hafter⟩
  -- the tail is stored
  case inl =>
    obtain ⟨hforward, hstop⟩ := hroom t rfl
    have hle : r.tail.toNat ≤ t.toNat := hforward
    refine ⟨{ r with tail := t }, _, hforward, ⟨?_, ?_, hhead, hmost, ?_, ?_, ?_, ?_⟩⟩
    · exact (ofFile_tailWrite base s.file t).trans (by rw [hfile])
    · change t.toNat ≤ r.head.toNat
      omega
    · change r.head.toNat ≤ t.toNat + 65520
      omega
    · exact hstores.part hle (by change t.toNat ≤ r.head.toNat; omega) le_rfl
    · exact hafter _ ht.ge
    · exact hreading.mono hle hstop le_rfl fun _ _ ↦ rfl
  -- the head is stored; the data in front of it is in place
  case inr.inl =>
    have hle : r.head.toNat ≤ v.toNat := by omega
    refine ⟨{ r with head := v }, _, UInt32.le_refl _,
      ⟨?_, htail.trans hle, hv.le, hmost, hfit, hstores, .idle hv, ?_⟩⟩
    · exact (ofFile_headWrite base s.file v).trans (by rw [hfile])
    · exact hreading.mono le_rfl (fun e he ↦ hreading.stop he) hle fun _ _ ↦ rfl
  -- a block of data; what the reader has still to copy is outside of it
  case inr.inr =>
    obtain ⟨pos, data⟩ := x
    cases hpos
    have hcells : writeArc r.cells 65520 m data = writeBlock r.cells (m % 65520) data :=
      writeArc_eq_writeBlock hblock
    refine ⟨{ r with cells := writeArc r.cells 65520 m data }, m + data.length,
      UInt32.le_refl _, ⟨?_, htail, ?_, hend, ?_, ?_, hafter, ?_⟩⟩
    · rw [hcells]
      exact (ofFile_dataWrite base s.file _ _).trans (by rw [hfile])
    · exact hhead.trans (Nat.le_add_right _ _)
    · change m + data.length ≤ r.tail.toNat + 65520
      change m + data.length ≤ s.written.length at hend
      omega
    · exact hstores.write (by omega) hdata (hend.trans hspace)
    · refine hreading.mono le_rfl (fun e he ↦ hreading.stop he) le_rfl fun p hp ↦ ?_
      have hout : ¬(base + 16 + m % 65520 ≤ base + 16 + p % 65520 ∧
          base + 16 + p % 65520 < base + 16 + m % 65520 + data.length) := hcovers p hp
      change _ = writeArc r.cells 65520 m data (p % 65520)
      rw [hcells, writeBlock_out (by omega)]

/-- The bytes a reader has still to copy are in the ring. -/
theorem Copied.copy {start take : ℕ} {got : List UInt8}
    (h : Copied r s.written out start take got) {n : ℕ} (hn : got.length + n ≤ take) :
    Copied r s.written out start take (got ++ arc r.cells 65520 (start + got.length) n) := by
  obtain ⟨hstop, hahead, hsmall, hpart, hcopied, hrest, hout⟩ := h
  have hlen : (got ++ arc r.cells 65520 (start + got.length) n).length = got.length + n := by
    rw [List.length_append, length_arc]
  have hnext : arc r.cells 65520 (start + got.length) n =
      (s.written.drop (start + got.length)).take n := by
    have hstore := hrest.part le_rfl (Nat.le_add_right _ n) (by omega)
    rwa [Stores, Nat.add_sub_cancel_left] at hstore
  refine ⟨hstop, hahead, hsmall, hlen.trans_le hn, ?_, ?_, hout⟩
  · rw [hlen, List.take_add, ← hcopied, List.drop_drop, hnext]
  · rw [hlen]
    exact hrest.part (by omega) (by omega) le_rfl

theorem Copied.first {base : ℕ} {f : Buffer} {tail take : UInt32}
    (h : Copied (Ring.ofFile base f) s.written out tail.toNat take.toNat []) :
    Copied (Ring.ofFile base f) s.written out tail.toNat take.toNat (copyFirst base tail take f) ∧
      (copyFirst base tail take f).length = (firstPart (tail % kIpcRingCap) take).toNat := by
  have hfirst := firstPart_counter tail take h.small
  have hgot : copyFirst base tail take f = [] ++ arc (Ring.ofFile base f).cells 65520
      (tail.toNat + 0) (firstPart (tail % kIpcRingCap) take).toNat := copyFirst_eq h.small
  have hnext := h.copy (n := (firstPart (tail % kIpcRingCap) take).toNat)
    (by rw [List.length_nil]; omega)
  rw [List.length_nil, ← hgot] at hnext
  exact ⟨hnext, by rw [copyFirst_eq h.small, length_arc]⟩

theorem Copied.second {base : ℕ} {f : Buffer} {tail take : UInt32} {got : List UInt8}
    (h : Copied (Ring.ofFile base f) s.written out tail.toNat take.toNat got)
    (hlen : got.length = (firstPart (tail % kIpcRingCap) take).toNat) :
    Copied (Ring.ofFile base f) s.written out tail.toNat take.toNat
        (got ++ copySecond base tail take f) ∧
      (got ++ copySecond base tail take f).length = take.toNat := by
  have hpart := h.part
  have hgot : copySecond base tail take f = arc (Ring.ofFile base f).cells 65520
      (tail.toNat + got.length) (take.toNat - got.length) := by
    rw [copySecond_eq h.small, hlen]
  have hnext := h.copy (n := take.toNat - got.length) (by omega)
  rw [← hgot] at hnext
  refine ⟨hnext, ?_⟩
  rw [List.length_append, hgot, length_arc]
  omega

/-- The reader goes on in its round and leaves the file alone. -/
theorem Coherent.goes_on (h : Coherent r base s out m) {reader : Reader}
    (hreading : Reading r s.written out reader) :
    ∃ r', r.tail ≤ r'.tail ∧ Coherent r' base { s with reader := reader } (out ++ []) m := by
  rw [List.append_nil]
  exact ⟨r, UInt32.le_refl _, h.ring, h.tail, h.head, h.most, h.room, h.stores, h.writing,
    hreading⟩

theorem Coherent.begin_round (h : Coherent r base s out m) (limit : UInt32)
    (hidle : s.reader = .idle) :
    readPlan (readHeader base s.file) limit = .nothing ∨
      ∃ tail take, readPlan (readHeader base s.file) limit = .copy tail take ∧
        Reading r s.written out (.first tail take) := by
  obtain ⟨hring, htail, hhead, hmost, hfit, hstores, hwriting, hreading⟩ := h
  rw [hidle] at hreading
  have hused : r.used = r.head.toNat - r.tail.toNat := Ring.used_of_le htail
  have hheader : readHeader base s.file = ⟨r.head, r.tail⟩ := by
    rw [← hring]
    rfl
  rw [hheader]
  rcases readPlan_cases (r := r) limit (by omega) with ⟨hplan, -⟩ | ⟨take, hplan, htake⟩
  · exact .inl hplan
  · have hle : take.toNat ≤ r.used := htake.trans_le (Nat.min_le_left _ _)
    exact .inr ⟨r.tail, take, hplan, Nat.le_add_right _ _, by omega, by omega, Nat.zero_le _, rfl,
      hstores.part le_rfl (Nat.le_add_right _ _) (by omega), hreading⟩

/-- The reader puts the tail behind what it has copied. -/
theorem Coherent.end_round (h : Coherent r base s out m) {tail take : UInt32} {got : List UInt8}
    (hreader : s.reader = .advancing tail take got) :
    ∃ r', r.tail ≤ r'.tail ∧ Coherent r' base
      { s with file := (tailWrite base (tail + take)).apply s.file, reader := .idle }
      (out ++ got) m := by
  obtain ⟨hring, htail, hhead, hmost, hfit, hstores, hwriting, hreading⟩ := h
  have hfile : Ring.ofFile base s.file = r := hring
  rw [hreader] at hreading
  obtain ⟨⟨hstop, hahead, hsmall, hpart, hcopied, hrest, hout⟩, hlen⟩ := hreading
  have hnext : (tail + take).toNat = tail.toNat + take.toNat := by
    have := r.head.toNat_lt
    rw [UInt32.toNat_add]
    omega
  have hforward : r.tail.toNat ≤ (tail + take).toNat := hnext ▸ hstop
  refine ⟨{ r with tail := tail + take }, hforward, ?_, ?_, hhead, hmost, ?_, ?_,
    hwriting.advance hforward, ?_⟩
  · exact (ofFile_tailWrite base s.file _).trans (by rw [hfile])
  · exact hnext.trans_le hahead
  · exact hfit.trans (Nat.add_le_add_right hforward _)
  · exact hstores.part hforward (hnext.trans_le (hahead.trans hhead)) le_rfl
  · change (out ++ got).Sublist (s.written.take (tail + take).toNat)
    rw [hnext, List.take_add, ← hlen, ← hcopied]
    exact hout.append (List.Sublist.refl got)

theorem Coherent.read (h : Coherent r base s out m) (limit : UInt32) :
    ∃ r', r.tail ≤ r'.tail ∧
      Coherent r' base (readStep base limit s).1 (out ++ (readStep base limit s).2) m := by
  have hfile : Ring.ofFile base s.file = r := h.ring
  have hreading := h.reading
  unfold readStep
  cases hreader : s.reader with
  | idle =>
      rcases h.begin_round limit hreader with hplan | ⟨tail, take, hplan, hfirst⟩
      · simp only [hplan, List.append_nil]
        exact ⟨r, UInt32.le_refl _, h⟩
      · simp only [hplan]
        exact h.goes_on hfirst
  | discarding head =>
      rw [hreader] at hreading
      exact hreading.elim
  | first tail take =>
      rw [hreader, ← hfile] at hreading
      obtain ⟨hcopied, hlen⟩ := Copied.first hreading
      rw [hfile] at hcopied
      have hfirst := firstPart_counter tail take hcopied.small
      simp only [gt_iff_lt, UInt32.lt_iff_toNat_lt]
      split
      · exact h.goes_on ⟨hcopied, hlen⟩
      · exact h.goes_on ⟨hcopied, by omega⟩
  | second tail take got =>
      rw [hreader, ← hfile] at hreading
      obtain ⟨hcopied, hlen⟩ := hreading
      have hnext := hcopied.second hlen
      rw [hfile] at hnext
      exact h.goes_on hnext
  | advancing tail take got => exact h.end_round hreader

end

theorem Coherent.delivered {r : Ring} {base : ℕ} {s : Cores} {out : List UInt8} {m : ℕ}
    (h : Coherent r base s out m) : out.Sublist s.written := by
  have hreading := h.reading
  cases hreader : s.reader with
  | idle =>
      rw [hreader] at hreading
      exact List.Sublist.trans hreading (List.take_sublist _ _)
  | discarding =>
      rw [hreader] at hreading
      exact hreading.elim
  | first =>
      rw [hreader] at hreading
      exact (Copied.out hreading).trans (List.take_sublist _ _)
  | second | advancing =>
      rw [hreader] at hreading
      exact hreading.1.out.trans (List.take_sublist _ _)

/-! ## Runs -/

theorem written_readStep (base : ℕ) (limit : UInt32) (s : Cores) :
    (readStep base limit s).1.written = s.written := by
  cases hreader : s.reader with
  | idle =>
      simp only [readStep, hreader]
      split <;> rfl
  | first =>
      simp only [readStep, hreader]
      split <;> rfl
  | discarding | second | advancing => simp only [readStep, hreader]

theorem written_step (base : ℕ) (s : Cores) (op : CoreOp) :
    s.written <+: (coresStep base s op).1.written := by
  cases op with
  | begin buf => by_cases hidle : s.writes = [] <;> simp [coresStep, hidle]
  | write => cases hwrites : s.writes <;> simp [coresStep, hwrites]
  | read limit =>
      change s.written <+: (readStep base limit s).1.written
      exact (written_readStep base limit s).symm ▸ List.prefix_rfl

theorem written_run (base : ℕ) (s : Cores) (ops : List CoreOp) :
    s.written <+: (run (coresStep base) s ops).1.written := by
  induction ops generalizing s with
  | nil => exact List.prefix_rfl
  | cons op ops ih => exact (written_step base s op).trans (ih _)

theorem coherent_step {r : Ring} {base : ℕ} {s : Cores} {out : List UInt8} {m : ℕ} {op : CoreOp}
    (h : Coherent r base s out m) (hrace : Raceless base s op)
    (htotal : (coresStep base s op).1.written.length < 2 ^ 32) :
    ∃ r' m', r.tail ≤ r'.tail ∧
      Coherent r' base (coresStep base s op).1 (out ++ (coresStep base s op).2) m' := by
  cases op with
  | begin buf =>
      by_cases hidle : s.writes = []
      · have hstep : coresStep base s (.begin buf) = ({ s with
            writes := writePlan base (readHeader base s.file) buf
            written := s.written ++ buf }, []) := if_pos hidle
        rw [hstep] at htotal ⊢
        rw [List.append_nil]
        exact ⟨r, m, UInt32.le_refl _, h.begin hidle hrace htotal⟩
      · have hstep : coresStep base s (.begin buf) = (s, []) := if_neg hidle
        rw [hstep, List.append_nil]
        exact ⟨r, m, UInt32.le_refl _, h⟩
  | write =>
      cases hwrites : s.writes with
      | nil =>
          have hstep : coresStep base s .write = (s, []) := by simp [coresStep, hwrites]
          rw [hstep, List.append_nil]
          exact ⟨r, m, UInt32.le_refl _, h⟩
      | cons x rest =>
          have hstep : coresStep base s .write =
              ({ s with file := x.apply s.file, writes := rest }, []) := by
            simp [coresStep, hwrites]
          obtain ⟨hroom, hcovers⟩ := hrace x (by rw [hwrites]; rfl)
          rw [h.ring] at hroom
          rw [hstep, List.append_nil]
          exact h.write hwrites hroom hcovers
  | read limit =>
      obtain ⟨r', hforward, hnext⟩ := h.read limit
      exact ⟨r', m, hforward, hnext⟩

/-- From zeroed counters on, with fewer than `2 ^ 32` bytes written in all and a
writer that keeps off what the reader works on, the reader gets a part of the
bytes written, in their order, and the stored tail never moves back. -/
theorem cores_safe (base : ℕ) (f : Buffer) (ops : List CoreOp)
    (hzero : readHeader base f = ⟨0, 0⟩)
    (htotal : (run (coresStep base) { file := f } ops).1.written.length < 2 ^ 32)
    (hrace : Along (coresStep base) (Raceless base) { file := f } ops) :
    (run (coresStep base) { file := f } ops).2.Sublist
        (run (coresStep base) { file := f } ops).1.written ∧
      Along (coresStep base)
        (fun s op ↦ (s.ring base).tail ≤ ((coresStep base s op).1.ring base).tail)
        { file := f } ops := by
  have hsmall : Along (coresStep base)
      (fun s op ↦ (coresStep base s op).1.written.length < 2 ^ 32) { file := f } ops := by
    rw [Along_iff_forall]
    intro xs op ys hsplit
    have hlater :=
      written_run base (coresStep base (run (coresStep base) { file := f } xs).1 op).1 ys
    rw [hsplit, run_append] at htotal
    exact hlater.length_le.trans_lt htotal
  have hboth := Along_and.mpr ⟨hrace, hsmall⟩
  have hhead : (Ring.ofFile base f).head = 0 := congrArg RingHeader.head hzero
  have htail : (Ring.ofFile base f).tail = 0 := congrArg RingHeader.tail hzero
  have hstart : Coherent (Ring.ofFile base f) base { file := f } [] 0 := by
    refine ⟨rfl, by rw [hhead, htail], by rw [hhead]; rfl, le_rfl, Nat.zero_le _, ?_, ?_, ?_⟩
    · rw [htail]
      exact Stores.refl _ _ _ _
    · rw [hhead]
      exact .idle rfl
    · exact List.nil_sublist _
  constructor
  · obtain ⟨r, m, hfinal⟩ := hboth.history (I := fun s out ↦ ∃ r m, Coherent r base s out m)
      (fun s out op ⟨r, m, h⟩ hop ↦ by
        obtain ⟨r', m', -, hnext⟩ := coherent_step h hop.1 hop.2
        exact ⟨r', m', hnext⟩)
      ⟨_, _, hstart⟩
    rw [List.nil_append] at hfinal
    exact hfinal.delivered
  · refine hboth.of_invariant (I := fun s ↦ ∃ r out m, Coherent r base s out m) ?_ ?_
      ⟨_, _, _, hstart⟩
    · rintro s op ⟨r, out, m, h⟩ hop
      obtain ⟨r', m', -, hnext⟩ := coherent_step h hop.1 hop.2
      exact ⟨r', _, m', hnext⟩
    · rintro s op ⟨r, out, m, h⟩ hop
      obtain ⟨r', m', hforward, hnext⟩ := coherent_step h hop.1 hop.2
      rw [h.ring, hnext.ring]
      exact hforward

theorem raceless_write {base : ℕ} {s : Cores} (x : FileWrite) (reader : Reader)
    (hx : s.writes.head? = some x) (hpos : x.pos ≠ base + 4) (hreader : s.reader = reader)
    (hcopy : ∀ p, reader.ToCopy p → ¬x.Covers (base + 16 + p % 65520)) :
    Raceless base s .write := by
  intro y hy
  cases hx.symm.trans hy
  refine ⟨fun tail htail ↦ absurd (congrArg FileWrite.pos htail) hpos, ?_⟩
  rw [hreader]
  exact hcopy

/-- A byte is written while the reader is about to copy the byte before it. -/
theorem cores_safe_beside :
    let ops : List CoreOp := [.begin [1], .write, .write, .begin [2], .read 4096, .write, .write,
      .read 4096, .read 4096]
    (run (coresStep 0) { file := fun _ ↦ 0 } ops).2.Sublist
        (run (coresStep 0) { file := fun _ ↦ 0 } ops).1.written ∧
      Along (coresStep 0)
        (fun s op ↦ (s.ring 0).tail ≤ ((coresStep 0 s op).1.ring 0).tail)
        { file := fun _ ↦ 0 } ops := by
  refine cores_safe 0 (fun _ ↦ 0) _ (by decide) (by decide)
    ⟨by unfold Raceless; decide, ?_, ?_, by unfold Raceless; decide, trivial, ?_, ?_, trivial,
      trivial, trivial⟩
  · exact raceless_write ⟨16, [1]⟩ .idle (by decide) (by decide) (by decide)
      fun _ hp ↦ hp.elim
  · exact raceless_write (headWrite 0 1) .idle (by decide) (by decide)
      (by decide) fun _ hp ↦ hp.elim
  · refine raceless_write ⟨17, [2]⟩ (.first 0 1) (by decide) (by decide)
      (by decide) fun p hp ↦ ?_
    have hcopy : 0 ≤ p ∧ p < 0 + 1 := hp
    obtain rfl : p = 0 := by omega
    unfold FileWrite.Covers
    decide
  · refine raceless_write (headWrite 0 2) (.first 0 1) (by decide) (by decide)
      (by decide) fun p _ hcovers ↦ ?_
    have hcounter : 0 + 16 + p % 65520 < 0 + 4 := hcovers.2
    omega

/-! ## A reader that is overtaken -/

def zeroFill : List CoreOp := [.begin (List.replicate 65520 0), .write, .write]

def zeroFilled : Cores where
  file := (headWrite 0 65520).apply fun _ ↦ 0
  written := List.replicate 65520 0

theorem zeroFill_plan :
    writePlan 0 ⟨0, 0⟩ (List.replicate 65520 0) =
      [⟨16, List.replicate 65520 0⟩, headWrite 0 65520] := by
  have hlen : (List.replicate 65520 (0 : UInt8)).length = 65520 := List.length_replicate
  have hroom : makeRoom ⟨0, 0⟩ 65520 = none := by decide
  have hfirst : firstPart (0 % kIpcRingCap) (UInt32.ofNat 65520) = 65520 := by decide
  have hone : ¬UInt32.ofNat 65520 > 65520 := by decide
  have htake : (List.replicate 65520 (0 : UInt8)).take (65520 : UInt32).toNat =
      List.replicate 65520 0 := List.take_of_length_le hlen.le
  rw [writePlan, dataWrites, hlen, hroom]
  simp only [hfirst, if_neg hone, htake]
  rfl

theorem zeroFill_file (off n : ℕ) :
    FileWrite.apply (fun _ ↦ 0) ⟨off, List.replicate n 0⟩ = fun _ ↦ 0 := by
  funext i
  rcases Nat.lt_or_ge i off with hlt | hge
  · exact writeBlock_out (.inl hlt)
  · obtain ⟨k, rfl⟩ := Nat.exists_eq_add_of_le hge
    rcases Nat.lt_or_ge k (List.replicate n (0 : UInt8)).length with hin | hout
    · exact (writeBlock_in hin).trans (List.getElem_replicate hin)
    · exact writeBlock_out (.inr (Nat.add_le_add_left hout off))

theorem zeroFill_run : run (coresStep 0) { file := fun _ ↦ 0 } zeroFill = (zeroFilled, []) := by
  have hheader : readHeader 0 (fun _ ↦ 0) = ⟨0, 0⟩ := by decide
  simp only [zeroFill, run_cons, run_nil, coresStep, hheader, zeroFill_plan, zeroFill_file,
    if_true, List.append_nil, List.nil_append]
  rfl

theorem not_sublist_zeros {out : List UInt8} (h : out.take 2 = [1, 0]) (n : ℕ) :
    ¬out.Sublist (List.replicate n 0 ++ [1]) := by
  intro hsub
  have hpair : [1, 0].Sublist (List.replicate n (0 : UInt8) ++ [1]) :=
    h ▸ (List.take_sublist 2 out).trans hsub
  obtain ⟨front, back, heq, hfront, hback⟩ := List.sublist_append_iff.mp hpair
  cases front with
  | nil =>
      rw [List.nil_append] at heq
      have hlen := hback.length_le
      rw [← heq] at hlen
      exact absurd hlen (by decide)
  | cons x front =>
      have hzero := List.eq_of_mem_replicate (hfront.subset List.mem_cons_self)
      have hone := (List.cons.inj heq).1
      rw [hzero] at hone
      exact absurd hone (by decide)

/-- The ring is full and one more byte is written.  A reader that begins its round
before room is made copies the new byte in the place of the oldest; one that
ends its round before room is made has the tail moved back. -/
theorem reader_overtaken :
    let start : Cores := { file := fun _ ↦ 0 }
    let copying := zeroFill ++ [.begin [1], .read 4096, .write, .write, .read 4096, .read 4096]
    let ended := zeroFill ++ [.begin [1], .read 4096, .read 4096, .read 4096]
    readHeader 0 start.file = ⟨0, 0⟩ ∧
      (run (coresStep 0) start copying).1.written.length < 2 ^ 32 ∧
      ¬(run (coresStep 0) start copying).2.Sublist (run (coresStep 0) start copying).1.written ∧
      ((run (coresStep 0) start ended).1.ring 0).tail = 4096 ∧
      ((run (coresStep 0) start (ended ++ [.write])).1.ring 0).tail = 1 := by
  intro start copying ended
  have hcopying := run_append (coresStep 0) start zeroFill
    [.begin [1], .read 4096, .write, .write, .read 4096, .read 4096]
  have hended := run_append (coresStep 0) start zeroFill
    [.begin [1], .read 4096, .read 4096, .read 4096]
  have hback := run_append (coresStep 0) start zeroFill
    [.begin [1], .read 4096, .read 4096, .read 4096, .write]
  rw [zeroFill_run, List.nil_append] at hcopying hended hback
  have hwritten : (run (coresStep 0) start copying).1.written = List.replicate 65520 0 ++ [1] :=
    congrArg (fun x ↦ x.1.written) hcopying
  refine ⟨by decide, ?_, ?_, ?_, ?_⟩
  · rw [hwritten, List.length_append, List.length_replicate]
    decide
  · rw [hwritten]
    refine not_sublist_zeros ?_ _
    rw [hcopying]
    decide +kernel
  · rw [hended]
    decide +kernel
  · rw [List.append_assoc]
    refine (congrArg (fun x ↦ (x.1.ring 0).tail) hback).trans ?_
    decide +kernel

end RadioService.Serial
