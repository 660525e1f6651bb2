import SrvrOS.Lib.Checked

/-!
# Sample rate conversion

`playwav/convert.c` turns stereo frames at 44.1 or 48 kHz into frames at 48 kHz. The state after
`k` frames of output is a function of `k` alone, so that the chunks in which they are asked for do
not show.
-/

namespace SrvrOS.Convert

open Lib List

abbrev Frame := Int × Int

def unsigned (bits value : Nat) : Option Nat := if value < 2 ^ bits then some value else none

/-- `struct pcm_convert`; `source` holds the frames that `read_frame` has yet to return. -/
structure PcmConvert where
  (inputFrames outputFrames rate : Nat)
  (inputAt outputAt fraction : Nat := 0)
  (current next : Frame)
  source : List Frame

/-- `pcm_convert_init`. A failure of these functions is a -1, or a value its type cannot hold. -/
def pcmConvertInit (rate frames : Nat) : List Frame → Option PcmConvert
  | [] => none
  | current :: source => do
    if rate ≠ 44100 ∧ rate ≠ 48000 ∨ frames = 0 ∨ (2 ^ 32 - 1) / 2 < frames then failure
    let rounded ← unsigned 64 ((← unsigned 64 (frames * 48000)) + rate)
    let outputFrames := (rounded - 1) / rate
    if 1 < frames then
      let next :: source := source | failure
      return { inputFrames := frames, outputFrames, rate, current, next, source }
    return { inputFrames := frames, outputFrames, rate, current, next := current, source }

/-- One channel of a frame of output; the subtraction is unsigned. -/
def mix (current next : Int) (fraction : Nat) : Option Int := do
  if 48000 < fraction then failure
  let sum ← int64 ((← int64 (current * (48000 - fraction))) + (← int64 (next * fraction)))
  int16 (sum.tdiv 48000)

/-- A turn of the loop of `pcm_convert_read`. -/
def convertFrame (c : PcmConvert) : Option (Frame × PcmConvert) := do
  let out := (← mix c.current.1 c.next.1 c.fraction, ← mix c.current.2 c.next.2 c.fraction)
  let outputAt ← unsigned 64 (c.outputAt + 1)
  let fraction ← unsigned 32 (c.fraction + c.rate)
  if fraction < 48000 then return (out, { c with outputAt, fraction })
  let inputAt ← unsigned 64 (c.inputAt + 1)
  let c := { c with outputAt, fraction := fraction - 48000, inputAt, current := c.next }
  if (← unsigned 64 (inputAt + 1)) < c.inputFrames then
    let next :: source := c.source | failure
    return (out, { c with next, source })
  return (out, { c with next := c.current })

def convertFrames : Nat → PcmConvert → Option (List Frame × PcmConvert)
  | 0, c => some ([], c)
  | room + 1, c => do
    if c.outputFrames ≤ c.outputAt then return ([], c)
    let (frame, c) ← convertFrame c
    let (frames, c) ← convertFrames room c
    return (frame :: frames, c)

def pcmConvertRead (c : PcmConvert) (capacity : Nat) : Option (List Frame × PcmConvert) :=
  if capacity = 0 ∨ 4096 < capacity then none else convertFrames capacity c

/-- The output of calls with the given capacities. -/
def pcmConvertReads : List Nat → PcmConvert → Option (List Frame)
  | [], _ => some []
  | capacity :: rest, c => do
    let (frames, c) ← pcmConvertRead c capacity
    return frames ++ (← pcmConvertReads rest c)

def Sample (value : Int) : Prop := -2 ^ 15 ≤ value ∧ value ≤ 2 ^ 15 - 1

theorem mix_eq {a b : Int} (left : Sample a) (right : Sample b) {f : Nat} (part : f < 48000) :
    mix a b f = some ((a * (48000 - f) + b * f).tdiv 48000) := by
  have weight : (0 : Int) ≤ 48000 - f := by omega
  have lowA := Int.mul_le_mul_of_nonneg_right left.1 weight
  have highA := Int.mul_le_mul_of_nonneg_right left.2 weight
  have lowB := Int.mul_le_mul_of_nonneg_right right.1 (Int.natCast_nonneg f)
  have highB := Int.mul_le_mul_of_nonneg_right right.2 (Int.natCast_nonneg f)
  simp only [mix, int64, int16, fit]
  generalize a * (48000 - f) = p at *
  generalize b * f = q at *
  have below := Int.tmod_lt_of_pos (p + q) (show 0 < 48000 by decide)
  have above := Int.lt_tmod_of_pos (p + q) (show 0 < 48000 by decide)
  have whole := Int.mul_tdiv_add_tmod (p + q) 48000
  rw [if_neg (by omega), if_pos (by omega), if_pos (by omega)]
  simp only [Option.bind_eq_bind, Option.bind_some]
  rw [if_pos (by omega)]
  simp
  omega

/-- What the converter is given. -/
structure Track where
  rate : Nat
  input : List Frame
  rates : rate = 44100 ∨ rate = 48000
  size : 1 ≤ input.length ∧ input.length ≤ (2 ^ 32 - 1) / 2
  samples : ∀ f ∈ input, Sample f.1 ∧ Sample f.2

namespace Track

variable (t : Track)

/-- Frame `i` of the input, whose last frame goes on. -/
def sample (i : Nat) : Frame := t.input.getD (min i (t.input.length - 1)) (0, 0)

/-- The value at time `k` of the line through the frames around it. -/
def interpolate (k : Nat) : Frame :=
  let i := k * t.rate / 48000
  let f := k * t.rate % 48000
  let channel (a b : Int) := (a * (48000 - f) + b * f).tdiv 48000
  (channel (t.sample i).1 (t.sample (i + 1)).1, channel (t.sample i).2 (t.sample (i + 1)).2)

/-- The length of the output: that of the input in units of 1 / 48000 s, rounded up. -/
def total : Nat := (t.input.length * 48000 + t.rate - 1) / t.rate

/-- The state after `k` frames of output. -/
def stateAt (k : Nat) : PcmConvert where
  inputFrames := t.input.length
  inputAt := k * t.rate / 48000
  outputFrames := t.total
  outputAt := k
  rate := t.rate
  fraction := k * t.rate % 48000
  current := t.sample (k * t.rate / 48000)
  next := t.sample (k * t.rate / 48000 + 1)
  source := t.input.drop (k * t.rate / 48000 + 2)

theorem sample_fits (i : Nat) : Sample (t.sample i).1 ∧ Sample (t.sample i).2 := by
  have := t.size
  refine t.samples _ ?_
  rw [sample, getD_eq_getElem?_getD, getElem?_eq_getElem (by omega)]
  exact getElem_mem _

theorem drop_eq_sample_cons {i : Nat} (inside : i < t.input.length) :
    t.input.drop i = t.sample i :: t.input.drop (i + 1) := by
  rw [drop_eq_getElem_cons inside, sample, Nat.min_eq_left (by omega)]
  simp [inside]

theorem sample_last {i : Nat} (past : t.input.length ≤ i + 1) : t.sample (i + 1) = t.sample i := by
  rw [sample, sample, Nat.min_eq_right (by omega), Nat.min_eq_right (by omega)]

theorem unsigned_eq {bits value : Nat} (small : value < 2 ^ bits) :
    unsigned bits value = some value :=
  if_pos small

/-- A turn of the loop takes the state after `k` frames to the one after `k + 1`. -/
theorem convertFrame_eq {k : Nat} (within : k < t.total) :
    convertFrame (t.stateAt k) = some (t.interpolate k, t.stateAt (k + 1)) := by
  have rates := t.rates
  have size := t.size
  have next : (k + 1) * t.rate = k * t.rate + t.rate := Nat.succ_mul ..
  have place : (k + 1) * t.rate ≤ _ := (Nat.le_div_iff_mul_le (by omega)).mp within
  have small : k ≤ k * t.rate := Nat.le_mul_of_pos_right _ (by omega)
  have part := Nat.mod_lt (k * t.rate) (show 0 < 48000 by decide)
  simp only [interpolate, stateAt]
  generalize at_i : k * t.rate / 48000 = i
  generalize at_f : k * t.rate % 48000 = f at *
  have fits := t.sample_fits i
  have fits' := t.sample_fits (i + 1)
  simp only [convertFrame, mix_eq fits.1 fits'.1 part, mix_eq fits.2 fits'.2 part,
    Option.bind_eq_bind, Option.bind_some]
  rw [unsigned_eq (by omega), Option.bind_some, unsigned_eq (by omega), Option.bind_some]
  by_cases turn : f + t.rate < 48000
  · have index : (k + 1) * t.rate / 48000 = i := by omega
    have fraction : (k + 1) * t.rate % 48000 = f + t.rate := by omega
    rw [if_pos turn, index, fraction]
    rfl
  · have index : (k + 1) * t.rate / 48000 = i + 1 := by omega
    have fraction : (k + 1) * t.rate % 48000 = f + t.rate - 48000 := by omega
    rw [if_neg turn, unsigned_eq (by omega), Option.bind_some, unsigned_eq (by omega),
      Option.bind_some, index, fraction]
    by_cases more : i + 1 + 1 < t.input.length
    · simp only [more, if_true, t.drop_eq_sample_cons more]
      rfl
    · have past : t.input.drop (i + 2) = [] := drop_eq_nil_of_le (by omega)
      rw [t.sample_last (by omega : _ ≤ i + 1 + 1), drop_eq_nil_of_le (by omega : _ ≤ i + 1 + 2)]
      simp only [more, if_false, past]
      rfl

theorem convertFrames_eq {k room : Nat} (within : k ≤ t.total) :
    convertFrames room (t.stateAt k) =
      some ((range' k (min room (t.total - k))).map t.interpolate,
        t.stateAt (k + min room (t.total - k))) := by
  induction room generalizing k with
  | zero => simp [convertFrames]
  | succ room ih =>
    rw [convertFrames]
    by_cases done : k = t.total
    · subst done
      simp [stateAt]
    have inside := Nat.lt_of_le_of_ne within done
    have count : min (room + 1) (t.total - k) = min room (t.total - (k + 1)) + 1 := by omega
    rw [if_neg (by simpa [stateAt] using inside), t.convertFrame_eq inside, count, range'_succ,
      ← Nat.add_assoc, Nat.add_right_comm k]
    simp [ih inside]

theorem pcmConvertReads_eq {k : Nat} {capacities : List { n : Nat // 1 ≤ n ∧ n ≤ 4096 }}
    (within : k ≤ t.total) :
    pcmConvertReads (capacities.map (·.1)) (t.stateAt k) = some
      ((range' k (min (capacities.map (·.1)).sum (t.total - k))).map t.interpolate) := by
  induction capacities generalizing k with
  | nil => simp [pcmConvertReads]
  | cons n rest ih =>
    have allowed := n.2
    have sum : min (n + (rest.map (·.1)).sum) (t.total - k) = min n.1 (t.total - k) +
        min (rest.map (·.1)).sum (t.total - (k + min n.1 (t.total - k))) := by omega
    simp only [map_cons, pcmConvertReads, pcmConvertRead, sum_cons]
    rw [if_neg (by omega), t.convertFrames_eq within, Option.bind_eq_bind, Option.bind_some,
      ih (by omega), sum, ← range'_append_1, map_append]
    rfl

theorem pcmConvertInit_eq : pcmConvertInit t.rate t.input.length t.input = some (t.stateAt 0) := by
  obtain ⟨rate, input, rates, size, samples⟩ := t
  match input with
  | [frame] =>
    simp [pcmConvertInit, unsigned, stateAt, sample, total]
    grind
  | first :: second :: rest =>
    simp [pcmConvertInit, unsigned, stateAt, sample, total]
    grind

/-- The output, in whatever chunks, is the interpolation of the input; nothing overflows, and no
frame is asked for after the last. -/
theorem reads_interpolate (t : Track) (capacities : List { n : Nat // 1 ≤ n ∧ n ≤ 4096 }) :
    (pcmConvertInit t.rate t.input.length t.input).bind
      (pcmConvertReads (capacities.map (·.1))) = some
        ((range (min (capacities.map (·.1)).sum t.total)).map t.interpolate) := by
  rw [t.pcmConvertInit_eq, Option.bind_some, t.pcmConvertReads_eq (Nat.zero_le _), range_eq_range']
  rfl

theorem reads_interpolate_two :
    (pcmConvertInit 44100 2 [(0, 100), (480, -100)]).bind (pcmConvertReads [1, 4096]) =
      some [(0, 100), (441, -83), (480, -100)] :=
  (reads_interpolate ⟨44100, [(0, 100), (480, -100)], by decide, by decide, by simp [Sample]⟩
    [⟨1, by decide⟩, ⟨4096, by decide⟩]).trans (by decide +kernel)

end Track

end SrvrOS.Convert
