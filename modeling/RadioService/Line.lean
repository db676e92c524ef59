import RadioService.Wire

/-!
# Clients at a line

A UART or a socket may take less than it is given, and a socket may take nothing for
a while; `writeAll` goes on until all of a buffer has gone out, or fails.  Without a
client nothing goes out.  What every client of the TCP transport reads is a greeting
and then whole frames, as long as no call of `writeAll` fails.
-/

namespace RadioService.Serial

open Machine Streams

/-! ## One buffer -/

/-- What a `write` or a `send` comes to. -/
inductive Push where
  | took (n : ℕ)
  | again
  | failed
deriving DecidableEq

/-- Nothing has failed; a UART is always ready. -/
def Push.steady (tcp : Bool) : Push → Bool
  | took n => n ≠ 0
  | again => tcp
  | failed => false

/-- What has gone out, what the call has returned, if it has, and the results that
nobody has asked for. -/
structure Pushed where
  out : List UInt8 := []
  ok : Option Bool
  rest : List Push
deriving DecidableEq

/-- `writeAll` at a UART or a socket.  A socket that is not ready is tried again. -/
def writeAllFd (tcp : Bool) : List UInt8 → List Push → Pushed
  | [], rs => { ok := some true, rest := rs }
  | _ :: _, [] => { ok := none, rest := [] }
  | b :: bs, .took n :: rs =>
    if n = 0 then
      { ok := some false, rest := rs }
    else
      let p := writeAllFd tcp ((b :: bs).drop n) rs
      { p with out := (b :: bs).take n ++ p.out }
  | b :: bs, .again :: rs =>
    if tcp then writeAllFd tcp (b :: bs) rs else { ok := some false, rest := rs }
  | _ :: _, .failed :: rs => { ok := some false, rest := rs }

/-- One call behind the other; no caller looks at what a call returns.  Behind a call
that does not return there is no other. -/
def writeBuffers (tcp : Bool) : List (List UInt8) → List Push → Pushed
  | [], rs => { ok := some true, rest := rs }
  | buf :: bufs, rs =>
    let p := writeAllFd tcp buf rs
    match p.ok with
    | none => p
    | some ok =>
      let q := writeBuffers tcp bufs p.rest
      { q with out := p.out ++ q.out, ok := q.ok.map (ok && ·) }

section

variable (tcp : Bool) (rs : List Push)

theorem writeAllFd_out_front (buf : List UInt8) : (writeAllFd tcp buf rs).out <+: buf := by
  induction rs generalizing buf with
  | nil => cases buf <;> exact List.nil_prefix
  | cons r rs ih =>
      cases buf with
      | nil => exact List.nil_prefix
      | cons b bs =>
          cases r with
          | took n =>
              rw [writeAllFd]
              split
              · exact List.nil_prefix
              · have hrest := (List.prefix_append_right_inj ((b :: bs).take n)).mpr
                  (ih ((b :: bs).drop n))
                rwa [List.take_append_drop] at hrest
          | again =>
              rw [writeAllFd]
              split
              · exact ih (b :: bs)
              · exact List.nil_prefix
          | failed => exact List.nil_prefix

/-- The call returns `true` if all has gone out, and only then. -/
theorem writeAllFd_ok_iff (buf : List UInt8) :
    (writeAllFd tcp buf rs).ok = some true ↔ (writeAllFd tcp buf rs).out = buf := by
  induction rs generalizing buf with
  | nil => cases buf <;> simp [writeAllFd]
  | cons r rs ih =>
      cases buf with
      | nil => simp [writeAllFd]
      | cons b bs =>
          cases r with
          | took n =>
              rw [writeAllFd]
              split
              · simp
              · refine (ih ((b :: bs).drop n)).trans ?_
                constructor
                · intro hrest
                  exact (congrArg _ hrest).trans (List.take_append_drop n (b :: bs))
                · intro hall
                  exact List.append_cancel_left (hall.trans (List.take_append_drop n _).symm)
          | again =>
              rw [writeAllFd]
              split
              · exact ih (b :: bs)
              · simp
          | failed => simp [writeAllFd]

theorem writeBuffers_length_le (bufs : List (List UInt8)) :
    (writeBuffers tcp bufs rs).out.length ≤ bufs.flatten.length := by
  induction bufs generalizing rs with
  | nil => exact Nat.zero_le _
  | cons buf bufs ih =>
      have hfirst := (writeAllFd_out_front tcp rs buf).length_le
      rw [writeBuffers, List.flatten_cons, List.length_append]
      dsimp only
      split
      · omega
      · have hrest := ih (writeAllFd tcp buf rs).rest
        rw [List.length_append]
        omega

/-- A call that has left something behind shows in all that goes out. -/
theorem writeAllFd_out_eq {buf ys zs : List UInt8} (hlen : ys.length ≤ zs.length)
    (h : (writeAllFd tcp buf rs).out ++ ys = buf ++ zs) : (writeAllFd tcp buf rs).out = buf := by
  have hprefix := writeAllFd_out_front tcp rs buf
  have hsize := congrArg List.length h
  rw [List.length_append, List.length_append] at hsize
  exact hprefix.eq_of_length_le (by omega)

/-- All has gone out if all calls return `true`, and only then. -/
theorem writeBuffers_ok_iff (bufs : List (List UInt8)) :
    (writeBuffers tcp bufs rs).ok = some true ↔
      (writeBuffers tcp bufs rs).out = bufs.flatten := by
  induction bufs generalizing rs with
  | nil => simp [writeBuffers]
  | cons buf bufs ih =>
      have hok := writeAllFd_ok_iff tcp rs buf
      have hrest := ih (writeAllFd tcp buf rs).rest
      have hlen := writeBuffers_length_le tcp (writeAllFd tcp buf rs).rest bufs
      rw [writeBuffers, List.flatten_cons]
      cases hp : (writeAllFd tcp buf rs).ok with
      | none =>
          rw [hp] at hok
          refine ⟨fun h ↦ ?_, fun h ↦ ?_⟩
          · rw [hp] at h
            cases h
          · have hall := hok.mpr (writeAllFd_out_eq tcp rs (Nat.zero_le _)
              ((List.append_nil _).trans h))
            cases hall
      | some ok =>
          rw [hp] at hok
          cases ok with
          | false =>
              refine ⟨fun h ↦ ?_, fun h ↦ ?_⟩
              · obtain ⟨ok, -, hfalse⟩ := Option.map_eq_some_iff.mp h
                cases hfalse
              · cases hok.mpr (writeAllFd_out_eq tcp rs hlen h)
          | true =>
              have hout := hok.mp rfl
              dsimp only
              rw [hout, List.append_cancel_left_eq, ← hrest]
              simp

theorem writeAllFd_steady {rs : List Push} (hrs : ∀ r ∈ rs, r.steady tcp = true)
    (buf : List UInt8) : (writeAllFd tcp buf rs).ok ≠ some false ∧
      ∀ r ∈ (writeAllFd tcp buf rs).rest, r.steady tcp = true := by
  induction rs generalizing buf with
  | nil => cases buf <;> simp [writeAllFd]
  | cons r rs ih =>
      obtain ⟨hr, hrest⟩ := List.forall_mem_cons.mp hrs
      cases buf with
      | nil => exact ⟨nofun, hrs⟩
      | cons b bs =>
          cases r with
          | took n =>
              rw [writeAllFd, if_neg (of_decide_eq_true hr)]
              exact ih hrest _
          | again =>
              have htcp : tcp = true := hr
              rw [writeAllFd, if_pos htcp]
              exact ih hrest _
          | failed => cases hr

/-- As long as nothing fails, what has gone out stands in front of all that is written. -/
theorem writeBuffers_front {rs : List Push} (hrs : ∀ r ∈ rs, r.steady tcp = true)
    (bufs : List (List UInt8)) : (writeBuffers tcp bufs rs).out <+: bufs.flatten := by
  induction bufs generalizing rs with
  | nil => exact List.nil_prefix
  | cons buf bufs ih =>
      obtain ⟨hok, hrest⟩ := writeAllFd_steady tcp hrs buf
      have hall := writeAllFd_ok_iff tcp rs buf
      rw [writeBuffers, List.flatten_cons]
      cases hp : (writeAllFd tcp buf rs).ok with
      | none => exact (writeAllFd_out_front tcp rs buf).trans (List.prefix_append _ _)
      | some ok =>
          rw [hp] at hok hall
          have htrue : ok = true := by simpa using hok
          dsimp only
          rw [hall.mp (congrArg some htrue), List.prefix_append_right_inj]
          exact ih hrest

end

/-! ## One client behind the other -/

/-- What a step writes to the line; without a client `writeAll` does nothing. -/
def put (s : Service) (i : ServiceStep) : List (List UInt8) :=
  if (serviceStep s i).1.server.connected then buffers (serviceStep s i).2 else []

/-- What is still written to the present client, and what to each of those that come. -/
def talks (s : Service) : List ServiceStep → List (List UInt8) × List (List (List UInt8))
  | [] => ([], [])
  | i :: is =>
    let (now, later) := talks (serviceStep s i).1 is
    if !s.server.connected && (serviceStep s i).1.server.connected then
      ([], (put s i ++ now) :: later)
    else
      (put s i ++ now, later)

/-- A greeting, and whole frames. -/
def Greets (bufs : List (List UInt8)) : Prop :=
  ∃ c frames, bufs.flatten = (Emission.ready 511 :: .stats c :: frames).flatMap Emission.bytes ∧
    ∀ e ∈ frames, e.fits

theorem serviceStep_emissions (s : Service) (i : ServiceStep)
    (hreset : .command .handleReset ∉ (tell s i).2) :
    (buffers (serviceStep s i).2).flatten = (emissions (tell s i).2).flatMap Emission.bytes := by
  rw [serviceStep_eq_tell]
  exact wire_acts hreset

theorem serverStep_opens {s : SerialServer} {op : ServerOp} (hs : s.connected = false)
    (hop : (serverStep s op).1.connected = true) : (serverStep s op).2 = [.greeting] := by
  have hclosed : s.connected ≠ true := by simp [hs]
  cases op with
  | accept now =>
      rw [serverStep] at hop ⊢
      split at hop
      · next hopen => rw [if_pos hopen]
      · exact absurd hop hclosed
  | byte r =>
      rw [serverStep, if_neg hclosed] at hop
      exact absurd hop hclosed
  | empty now =>
      rw [serverStep, if_neg hclosed] at hop
      exact absurd hop hclosed
  | close => cases hop

theorem respond_server (io : HandlerInput) (s : Service) (e : ServerEvent) :
    (respond io s e).1.server = s.server := by
  cases e with
  | command c =>
      cases c with
      | handleConfig body len =>
          change (s.handleConfig io body).1.server = s.server
          unfold Service.handleConfig
          dsimp only
          split
          · rfl
          · split <;> rfl
      | handleScanQ count dwell freqs =>
          change (s.handleScanQ io count dwell freqs).1.server = s.server
          unfold Service.handleScanQ
          split <;> rfl
      | _ => rfl
  | greeting | periodicStats => rfl

theorem run_respondActs_server (io : HandlerInput) (s : Service) (es : List ServerEvent) :
    (run (respondActs io) s es).1.server = s.server := by
  induction es generalizing s with
  | nil => rfl
  | cons e es ih => exact (ih _).trans (respond_server io s e)

/-- A step that opens the line greets. -/
theorem opens_greets {s : Service} {i : ServiceStep} (hs : s.server.connected = false)
    (hi : (tell s i).1.server.connected = true) :
    ∃ c, emissions (tell s i).2 = [.ready 511, .stats c] := by
  have hclosed : s.server.connected ≠ true := by simp [hs]
  cases i with
  | poll io =>
      rw [tell] at hi
      split at hi <;> exact absurd hi hclosed
  | serve op io =>
      rw [tell] at hi ⊢
      split at hi
      · exact absurd hi hclosed
      next hturn =>
        rw [if_neg hturn]
        dsimp only at hi ⊢
        rw [run_respondActs_server] at hi
        rw [serverStep_opens hs hi]
        exact ⟨_, rfl⟩

theorem talks_whole (s : Service) (is : List ServiceStep)
    (hreset : .command .handleReset ∉ (run tell s is).2) :
    (∃ frames : List Emission,
      (talks s is).1.flatten = frames.flatMap Emission.bytes ∧ ∀ e ∈ frames, e.fits) ∧
      ∀ bufs ∈ (talks s is).2, Greets bufs := by
  induction is generalizing s with
  | nil => exact ⟨⟨[], rfl, nofun⟩, nofun⟩
  | cons i is ih =>
      rw [run_cons, List.mem_append, not_or] at hreset
      obtain ⟨⟨frames, hflat, hfits⟩, hlater⟩ := ih (tell s i).1 hreset.2
      have hstep : (serviceStep s i).1 = (tell s i).1 := by rw [serviceStep_eq_tell]
      have hwhole := serviceStep_emissions s i hreset.1
      have hown : ∀ e ∈ emissions (tell s i).2, e.fits := by
        have hall := run_tell_fits s [i]
        simpa using hall
      rw [talks]
      dsimp only
      rw [hstep]
      split
      · next hopens =>
          obtain ⟨hclosed, hopen⟩ := Bool.and_eq_true_iff.mp hopens
          obtain ⟨c, hgreets⟩ := opens_greets (by simpa using hclosed) hopen
          refine ⟨⟨[], rfl, nofun⟩, List.forall_mem_cons.mpr ⟨⟨c, frames, ?_, hfits⟩, hlater⟩⟩
          rw [put, hstep, if_pos hopen, List.flatten_append, hwhole, hgreets, hflat,
            ← List.flatMap_append]
          rfl
      · refine ⟨?_, hlater⟩
        rw [put, hstep]
        split
        · refine ⟨emissions (tell s i).2 ++ frames, ?_, List.forall_mem_append.mpr ⟨hown, hfits⟩⟩
          rw [List.flatten_append, hwhole, hflat, List.flatMap_append]
        · exact ⟨frames, hflat, hfits⟩

/-- However many clients come and go, and whatever the socket takes at a time: what a
client reads is a greeting and whole frames behind it, unless an `X` is handled or a
call of `writeAll` fails.  All of it has gone out when all calls have returned `true`,
and only then; until then it is a part from the front, as long as nothing fails. -/
theorem clients_read_frames (now : UInt32) (io : InitInput) (is : List ServiceStep)
    (hreset : .command .handleReset ∉ (run tell (.boot true now io) is).2)
    {bufs : List (List UInt8)} (hbufs : bufs ∈ (talks (.boot true now io) is).2)
    (rs : List Push) :
    ((writeBuffers true bufs rs).ok = some true ↔
      (writeBuffers true bufs rs).out = bufs.flatten) ∧
    ((∀ r ∈ rs, r.steady true = true) → (writeBuffers true bufs rs).out <+: bufs.flatten) ∧
    ((writeBuffers true bufs rs).ok = some true → ∃ c frames,
      decodeAll decodeFrame (writeBuffers true bufs rs).out =
        some (.ready 511 :: .stats c :: frames)) := by
  refine ⟨writeBuffers_ok_iff true rs bufs, fun hrs ↦ writeBuffers_front true hrs bufs,
    fun hok ↦ ?_⟩
  obtain ⟨c, frames, hflat, hfits⟩ := (talks_whole _ is hreset).2 bufs hbufs
  have hall : ∀ e ∈ Emission.ready 511 :: .stats c :: frames, e.fits :=
    List.forall_mem_cons.mpr ⟨trivial, List.forall_mem_cons.mpr ⟨trivial, hfits⟩⟩
  rw [(writeBuffers_ok_iff true rs bufs).mp hok, hflat]
  exact ⟨c, frames.map Emission.received,
    decodeAll_flatMap fun e he ↦ decodeFrame_undoes (hall e he)⟩

/-- A client asks for the counters and goes; the next one is greeted. -/
def twoClients : List ServiceStep :=
  [.serve (.accept 5) {}, .serve (.byte { byte := 0x53, now := 10 }) {}, .serve .close {},
    .poll (pollAt 4000 0), .serve (.accept 20) {}, .serve (.empty 21) {}, .poll (pollAt 8000 0)]

def firstClient : List (List UInt8) := (talks (.boot true 0 {}) twoClients).2.headD []

/-- The socket takes two bytes, nothing, one byte, and then whole buffers. -/
def slowSocket : List Push := [.took 2, .again, .took 1] ++ List.replicate 4 (.took 100)

theorem clients_read_frames_slow : (writeBuffers true firstClient slowSocket).out.length = 145 ∧
    (writeBuffers true firstClient slowSocket).out <+: firstClient.flatten ∧
    ∃ c frames, decodeAll decodeFrame (writeBuffers true firstClient slowSocket).out =
      some (.ready 511 :: .stats c :: frames) := by
  have hbufs : firstClient ∈ (talks (.boot true 0 {}) twoClients).2 := by decide +kernel
  have hreset : .command .handleReset ∉ (run tell (.boot true 0 {}) twoClients).2 := by
    decide +kernel
  have hok : (writeBuffers true firstClient slowSocket).ok = some true := by decide +kernel
  obtain ⟨-, hprefix, hdecodes⟩ :=
    clients_read_frames 0 {} twoClients hreset hbufs slowSocket
  exact ⟨by decide +kernel, hprefix (by decide +kernel), hdecodes hok⟩

end RadioService.Serial
