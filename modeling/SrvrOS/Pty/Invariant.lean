import SrvrOS.Pty.Discipline

/-!
# Every request keeps the terminal well formed

Reads consume whole or partial records, mode switches move bytes between the line, the
ring and the record queue. A request that answers an error changes nothing.
-/

namespace SrvrOS.Pty

open Lib RingBuffer Nat List Word

section Reads

variable {p : Model} {len : Nat} {copyout : Copyout}

/-- There are bytes, and the callback refuses them. -/
def Refused (copyout : Copyout) (bytes : List UInt8) : Prop :=
  bytes ≠ [] ∧ ∃ first second, first ++ second = bytes ∧ copyout first second = false

theorem Refused.of_runs {r : RingBuffer UInt8} {n : Nat} (bounded : r.Bounded ptyBytes)
    (inside : n ≤ r.size) (refused : n ≠ 0 ∧ copyout (ringRuns r n).1 (ringRuns r n).2 = false) :
    Refused copyout ((r.contents ptyBytes).take n) := by
  refine ⟨fun none => refused.1 ?_, _, _, ringRuns_append bounded inside, refused.2⟩
  have width := congrArg List.length none
  rw [length_take, contents_length, min_eq_left inside] at width
  exact width

section

variable (wf : WellFormed p)

include wf

theorem pendingRecords_eq_cons (some : p.recordCount ≠ 0) :
    pendingRecords p = p.records p.recordHead :: (pendingRecords p).drop 1 :=
  contents_eq_cons wf.queue (Nat.pos_of_ne_zero some)

theorem head_le_size (mode : p.attributes.icanon = true)
    (some : p.recordCount ≠ 0) : p.records p.recordHead ≤ p.input.size := by
  rw [← wf.canonical mode, pendingRecords_eq_cons wf some]
  exact le_add_right _ _

theorem recordQueue_taken (some : p.recordCount ≠ 0) {left : Nat} : let queue : RingBuffer Nat :=
      ⟨Function.update p.records p.recordHead left,
        if left = 0 then (p.recordHead + 1) % ptyRecords else p.recordHead,
        if left = 0 then sub 32 p.recordCount 1 else p.recordCount⟩
    queue.Bounded ptyRecords ∧
      queue.contents ptyRecords =
        if left = 0 then (pendingRecords p).drop 1 else left :: (pendingRecords p).drop 1 := by
  have occupied := Nat.pos_of_ne_zero some
  have updated := contents_update_head wf.queue occupied left
  by_cases exhausted : left = 0
  · have small : p.recordCount < 2 ^ 32 := wf.queue.size_le.trans_lt (by decide)
    simp only [exhausted, sub_of_le (one_le_iff_ne_zero.mpr some) small]
    rw [exhausted] at updated
    let emptied : RingBuffer Nat :=
      ⟨Function.update p.records p.recordHead 0, p.recordHead, p.recordCount⟩
    have bounded : emptied.Bounded ptyRecords := ⟨wf.queue.head_lt, wf.queue.size_le⟩
    have dropped := congrArg (drop 1) updated
    exact ⟨bounded.skip 1, (contents_skip emptied 1).trans dropped⟩
  · simp only [exhausted]
    exact ⟨⟨wf.queue.head_lt, wf.queue.size_le⟩, updated⟩

/-- A read of a record takes bytes of the first pending record only. -/
theorem readRecord_spec (mode : p.attributes.icanon = true)
    (some : p.recordCount ≠ 0) (len : Nat) (copyout : Copyout) :
    let out := readRecord p len copyout
    let first := p.records p.recordHead
    let rest := (pendingRecords p).drop 1
    (out = (⟨errFault, []⟩, p) ∧ Refused copyout ((waiting p).take (min len first))) ∨
      (out.1 = ⟨(min len first : Nat), (waiting p).take (min len first)⟩ ∧
        Leads p out.2 (if first ≤ len then rest else (first - len) :: rest)
          ((waiting p).drop (min len first)) (unfinished p)) := by
  intro out first rest
  have inside : min len first ≤ p.input.size :=
    (min_le_right _ _).trans (head_le_size wf mode some)
  have small : first < 2 ^ 16 :=
    (head_le_size wf mode some).trans_lt (wf.input.size_le.trans_lt (by decide))
  have left_eq : sub 16 first (min len first) = first - min len first :=
    sub_of_le (min_le_right _ _) small
  simp only [out, readRecord]
  split
  next refused => exact .inl ⟨rfl, .of_runs wf.input inside refused⟩
  refine .inr ⟨by rw [ringRuns_append wf.input inside]; rfl, ?_⟩
  obtain ⟨queueBounded, queueView⟩ := recordQueue_taken wf some
  have consumed := consume_eq_skip wf.input inside
  have records : pendingRecords p = first :: rest := pendingRecords_eq_cons wf some
  have queueRecords : (if first - min len first = 0 then rest
      else (first - min len first) :: rest) =
      if first ≤ len then rest else (first - len) :: rest := by
    by_cases whole : first ≤ len
    · rw [if_pos (by omega), if_pos whole]
    · rw [if_neg (by omega), if_neg whole, min_eq_left (by omega)]
  rw [left_eq, consumed]
  exact
    { wellFormed :=
        { input := wf.input.skip _
          output := wf.output
          lineSize_le := wf.lineSize_le
          queue := queueBounded
          canonical := fun _ => by
            have sum := wf.canonical mode
            rw [records, sum_cons] at sum
            refine (congrArg List.sum (queueView.trans queueRecords)).trans ?_
            simp only [skip]
            by_cases whole : first ≤ len
            · rw [if_pos whole]
              omega
            · rw [if_neg whole, sum_cons]
              omega
          stream := fun stream => by simp [mode] at stream }
      records_eq := queueView.trans queueRecords
      waiting_eq := contents_skip _ _
      unfinished_eq := rfl
      attributes_eq := rfl
      masterClosed_eq := rfl
      slaveClosed_eq := rfl }

def readable (p : Model) (master : Bool) : List UInt8 := if master then shown p else waiting p

theorem readRing_bounded (m : Bool) : (readRing p m).Bounded ptyBytes := by
  cases m with
  | false => exact wf.input
  | true => exact wf.output

end

theorem readRing_contents (m : Bool) : (readRing p m).contents ptyBytes = readable p m := by
  cases m <;> rfl

variable {m : Bool}

section

variable (wf : WellFormed p)

include wf

/-- A read of a stream answers an error and changes nothing, or takes the first bytes. -/
theorem readStream_spec {len : Nat} {nonblocking : Bool} {copyout : Copyout} :
    let out := readStream p m len nonblocking copyout
    let n := min len (readRing p m).size
    (∃ e < 0, out = (⟨e, []⟩, p) ∧
      (e = errAgain ∧ (readRing p m).size < readMinimum p m len nonblocking ∨
        e = errFault ∧ Refused copyout ((readable p m).take n))) ∨
      (out.1 = ⟨n, (readable p m).take n⟩ ∧
        out.2 = setReadRing p m ((readRing p m).skip ptyBytes n)) := by
  intro out n
  have inside := min_le_right len (readRing p m).size
  have bounded := readRing_bounded wf m
  simp only [out, readStream]
  split
  next few => exact .inl ⟨errAgain, by decide, rfl, .inl ⟨rfl, few.1⟩⟩
  split
  next refused =>
    refine .inl ⟨errFault, by decide, rfl, .inr ⟨rfl, ?_⟩⟩
    exact readRing_contents m ▸ .of_runs bounded inside refused
  refine .inr ⟨?_, ?_⟩
  · rw [ringRuns_append bounded inside, readRing_contents]
  · rw [consume_eq_skip bounded inside]

theorem setReadRing_wellFormed (stream : m = true ∨ p.attributes.icanon = false)
    {r : RingBuffer UInt8} (bounded : r.Bounded ptyBytes) : WellFormed (setReadRing p m r) := by
  cases m with
  | true => exact { wf with output := bounded }
  | false =>
    have mode : p.attributes.icanon = false := by simpa using stream
    exact
      { wf with
        input := bounded
        canonical := fun canonical => by simp [setReadRing, mode] at canonical }

theorem readLine_wellFormed : WellFormed (readLine p len copyout).2 := by
  simp only [readLine]
  split
  · exact wf
  refine { wf with lineSize_le := ?_ }
  rw [sub_of_le (min_le_right _ _) wf.lineSize_small]
  exact (sub_le _ _).trans wf.lineSize_le

theorem ptyModelReadChecked_wellFormed {m nonblocking : Bool} :
    WellFormed (ptyModelReadChecked p m len nonblocking copyout).2 := by
  unfold ptyModelReadChecked
  split
  · exact wf
  split
  · rename_i slave
    split
    · split
      · exact wf
      · exact readLine_wellFormed wf
    rename_i records
    rcases readRecord_spec wf slave.2 records len copyout with
      ⟨fault, -⟩ | ⟨_, leads⟩
    · rw [fault]
      exact wf
    · exact leads.wellFormed
  have mode : m = true ∨ p.attributes.icanon = false := by cases m <;> simp_all
  rcases readStream_spec wf with ⟨e, -, same, -⟩ | ⟨-, taken⟩
  · rw [same]
    exact wf
  · rw [taken]
    exact setReadRing_wellFormed wf mode ((readRing_bounded wf m).skip _)

end

theorem ptyModelReadChecked_failed {p : Model} (m : Bool) (len : Nat) (nonblocking : Bool)
    (copyout : Copyout) (failed : (ptyModelReadChecked p m len nonblocking copyout).1.result < 0) :
    (ptyModelReadChecked p m len nonblocking copyout).2 = p := by
  have natural : ∀ n : Nat, ¬((n : Int) < 0) := fun n => by omega
  revert failed
  simp only [ptyModelReadChecked, readLine, readRecord, readStream]
  split_ifs <;> simp [natural]

end Reads

section Writes

variable {p : Model} {data : List UInt8}

section

variable (wf : WellFormed p)

include wf

theorem writeMaster_wellFormed : WellFormed (writeMaster data p).2 := by
  induction data generalizing p with
  | nil => exact wf
  | cons c rest ih =>
    unfold writeMaster
    split
    · exact wf
    rename_i next accepted
    obtain ⟨_, _, _, leads, -⟩ := input_leads wf accepted
    split
    · exact leads.wellFormed
    · exact ih leads.wellFormed

theorem output_wellFormed {c : UInt8}
    (room : outputWidth p.attributes c ≤ space p.output) : WellFormed (output p c) :=
  ((Leads.refl wf).shows (by rwa [outputBytes_length])).wellFormed

theorem writeSlave_wellFormed : WellFormed (writeSlave data p).2 := by
  induction data generalizing p with
  | nil => exact wf
  | cons c rest ih =>
    unfold writeSlave
    split
    · exact wf
    rename_i room
    exact ih (output_wellFormed wf (not_lt.mp room))

theorem ptyModelWrite_wellFormed : WellFormed (ptyModelWrite p m data).2 := by
  unfold ptyModelWrite
  split
  · exact wf
  split
  · exact wf
  cases m with
  | false => exact writeSlave_wellFormed wf
  | true => exact writeMaster_wellFormed wf

end

end Writes

section Attributes

variable {p switched : Model} {a : Termios}

theorem switchInput_wellFormed (wf : WellFormed p) {action : SetAction}
    (done : switchInput p a action = some switched) :
    WellFormed { switched with attributes := a } := by
  unfold switchInput at done
  split at done
  · cases done
    have cleared := (clearInput_leads wf).wellFormed
    exact { cleared with canonical := fun _ => rfl, stream := fun _ => rfl }
  split at done
  · rename_i leaving
    split at done
    · cases done
    rename_i room
    cases done
    obtain ⟨bounded, _⟩ := putLine_spec p.line wf.input (not_lt.mp room)
    exact
      { input := bounded
        output := wf.output
        lineSize_le := zero_le _
        queue := ⟨(by decide : 0 < ptyRecords), zero_le _⟩
        canonical := fun canonical => absurd canonical leaving.2
        stream := fun _ => rfl }
  rename_i notLeaving
  split at done
  · rename_i entering
    cases done
    have small : p.input.size < 2 ^ 16 := wf.input.size_le.trans_lt (by decide)
    exact
      { wf with
        queue := ⟨(by decide : 0 < ptyRecords), (by decide : 1 ≤ ptyRecords)⟩
        canonical := fun _ => by simp [pendingRecords, recordQueue, contents, wrap_of_lt small]
        stream := fun stream => by simp [entering.2.1] at stream }
  rename_i notEntering
  cases done
  refine { wf with canonical := fun canonical => ?_, stream := fun stream => ?_ }
  · by_cases mode : p.attributes.icanon = true
    · exact wf.canonical mode
    have empty : p.input.size = 0 := by
      by_contra occupied
      exact notEntering ⟨mode, canonical, occupied⟩
    have noRecords := wf.stream (by simpa using mode)
    have none : pendingRecords p = [] := contents_of_size_zero noRecords
    exact (congrArg sum none).trans empty.symm
  refine wf.stream ?_
  by_contra mode
  exact notLeaving ⟨by simpa using mode, by simp [stream]⟩

theorem ptyModelAttributes_wellFormed (wf : WellFormed p) {a : Termios}
    {action : Option SetAction} : WellFormed (ptyModelAttributes p a action).2 := by
  unfold ptyModelAttributes
  split
  · exact wf
  split
  · exact wf
  split
  · exact wf
  split
  · exact wf
  · exact switchInput_wellFormed wf ‹_›

theorem ptyModelAttributes_failed {p : Model} (a : Termios) (action : Option SetAction)
    (failed : (ptyModelAttributes p a action).1 < 0) : (ptyModelAttributes p a action).2 = p := by
  revert failed
  unfold ptyModelAttributes
  split
  · exact fun _ => rfl
  split
  · exact fun _ => rfl
  split
  · exact fun _ => rfl
  split
  · exact fun _ => rfl
  · exact fun impossible => absurd impossible (lt_irrefl 0)

end Attributes

theorem step_wellFormed (p : Model) (request : Request) (wf : WellFormed p) :
    WellFormed (step p request).2 := by
  cases request with
  | write m data => exact ptyModelWrite_wellFormed wf
  | read m len nonblocking copyout =>
    exact ptyModelReadChecked_wellFormed wf
  | attributes a action => exact ptyModelAttributes_wellFormed wf
  | closeFlags | takeSignals => exact { wf with }

/-- The terminal after any requests since `pty_model_init`. -/
def reached (requests : List Request) : Model := (run step init requests).2

theorem reached_wellFormed (requests : List Request) : WellFormed (reached requests) :=
  run_invariant step WellFormed step_wellFormed wellFormed_init requests

/-- After any requests both rings, the line and the record queue are in range, pending records
account for the input ring exactly in canonical mode and are absent otherwise, and a read or an
attribute change that fails leaves the terminal as it was. -/
theorem ptyModel_counters_consistent (requests : List Request) :
    let p := reached requests
    (p.input.head < 8192 ∧ p.input.size ≤ 8192) ∧
      (p.output.head < 8192 ∧ p.output.size ≤ 8192) ∧
      p.lineSize ≤ 1023 ∧ p.recordCount ≤ 128 ∧
      (p.attributes.icanon = true →
        ((range p.recordCount).map fun i =>
          p.records ((p.recordHead + i) % 128)).sum = p.input.size) ∧
      (p.attributes.icanon = false → p.recordCount = 0) ∧
      (∀ master length nonblocking copyout,
        (ptyModelReadChecked p master length nonblocking copyout).1.result < 0 →
          (ptyModelReadChecked p master length nonblocking copyout).2 = p) ∧
      ∀ a action, (ptyModelAttributes p a action).1 < 0 →
        (ptyModelAttributes p a action).2 = p := by
  intro p
  have wf := reached_wellFormed requests
  exact ⟨⟨wf.input.head_lt, wf.input.size_le⟩, ⟨wf.output.head_lt, wf.output.size_le⟩,
    wf.lineSize_le, wf.queue.size_le, wf.canonical, wf.stream,
    ptyModelReadChecked_failed, ptyModelAttributes_failed⟩

end SrvrOS.Pty
