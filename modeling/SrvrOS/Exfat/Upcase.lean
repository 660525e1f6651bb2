import SrvrOS.Exfat.Frame.Reserve
import SrvrOS.Exfat.Sample

/-!
# The up-case table

`validate_system_stream` decodes the up-case table in buffers of at most 512 bytes, cluster by
cluster. What it decides is a property of the bytes of the whole stream: they decode to a
complete table that maps ASCII as it must.
-/

namespace SrvrOS.Exfat

open Lib Act List Sample

variable {units : List Nat}

/-! ## Tables -/

def codeUnits : Bytes → List Nat
  | low :: high :: rest => leValue [low, high] :: codeUnits rest
  | _ => []

/-- The upper case that a table must give an ASCII code unit. -/
def mandatoryUpcase (unit : Nat) : Nat :=
  if 97 ≤ unit ∧ unit ≤ 122 then unit - 32 else unit

/-- Decoding from a position of the table on. After 0xffff comes the number of code units that are
mapped to themselves, unless it is the last mapping. -/
inductive Decodes : Nat → List Nat → List Nat → Prop
  | done {position : Nat} : Decodes position [] []
  | skip {position count : Nat} {rest table : List Nat} (early : position ≠ 65535)
      (later : Decodes (position + count) rest table) :
      Decodes position (0xffff :: count :: rest) (range' position count ++ table)
  | literal {position value : Nat} {rest table : List Nat}
      (plain : ¬(value = 0xffff ∧ position ≠ 65535)) (later : Decodes (position + 1) rest table) :
      Decodes position (value :: rest) (value :: table)

/-- A part of a table from a position on maps the ASCII code units in it as it must. -/
def MapsAscii (position : Nat) (table : List Nat) : Prop :=
  ∀ place < table.length, position + place < 128 →
    table[place]? = some (mandatoryUpcase (position + place))

/-- From a state on the decoder accepts the rest of a stream given to it in one buffer. -/
def UpcaseState.Accepts (state : UpcaseState) (checksum : Nat) (stream : Bytes) : Prop :=
  ∃ final, upcaseChunk stream state = some final ∧ final.skip = false ∧ final.mapped = 65536 ∧
    final.checksum = checksum

/-- The decoder, given the whole stream in one buffer, accepts it. -/
def UpcaseAccepts (checksum : Nat) (stream : Bytes) : Prop :=
  stream.length % 2 = 0 ∧ stream.length ≤ 131072 ∧
    UpcaseState.Accepts { checksum := 0, mapped := 0, skip := false } checksum stream

def fatEntry (world : World) (m cluster : Nat) : Nat :=
  leValue ((world.medium m).read ((world.volume m).fatOffsetBytes + cluster * 4) 4)

/-- The bytes of a chain of clusters that ends exactly where the size says. -/
inductive SystemStream (world : World) (m : Nat) : Nat → Nat → Bytes → Prop
  | last {cluster base remaining : Nat}
      (place : clusterOffset (world.volume m) cluster = some base)
      (fits : remaining ≤ (world.volume m).clusterSize)
      (ends : exfatFatChainEnd ≤ fatEntry world m cluster) :
      SystemStream world m cluster remaining ((world.medium m).read base remaining)
  | more {cluster base remaining : Nat} {rest : Bytes}
      (place : clusterOffset (world.volume m) cluster = some base)
      (longer : (world.volume m).clusterSize < remaining)
      (later : SystemStream world m (fatEntry world m cluster)
        (remaining - (world.volume m).clusterSize) rest) :
      SystemStream world m cluster remaining
        ((world.medium m).read base (world.volume m).clusterSize ++ rest)

variable {w : World} {m c size base off len : Nat} {s final : UpcaseState}
  {stream : Bytes}

theorem SystemStream.length_eq (hit : SystemStream w m c size stream) : stream.length = size := by
  induction hit with
  | last => exact Store.read_length ..
  | more _ longer _ ih =>
    rw [length_append, Store.read_length]
    omega

variable {left right : Bytes}

theorem SystemStream.unique (first : SystemStream w m c size left)
    (second : SystemStream w m c size right) : left = right := by
  induction first generalizing right with
  | last p fits =>
    cases second with
    | last p' => rw [Option.some.inj (p.symm.trans p')]
    | more _ longer => omega
  | more p longer _ ih =>
    cases second with
    | last _ fits => omega
    | more p' _ later => rw [Option.some.inj (p.symm.trans p'), ih later]

/-! ## The decoder -/

theorem upcaseUnit_checksum (sum v : Nat) : upcaseUnit { s with checksum := sum } v =
      (upcaseUnit s v).map ({ · with checksum := sum }) := by
  unfold upcaseUnit
  repeat' split
  all_goals rfl

theorem upcaseUnits_checksum (s : UpcaseState) (sum : Nat) :
    units.foldlM upcaseUnit { s with checksum := sum } =
      (units.foldlM upcaseUnit s).map ({ · with checksum := sum }) := by
  induction units generalizing s with
  | nil => rfl
  | cons unit rest ih =>
    rw [foldlM_cons, foldlM_cons, upcaseUnit_checksum]
    cases upcaseUnit s unit with
    | none => rfl
    | some next => exact ih next

theorem codeUnits_append (even : left.length % 2 = 0) :
    codeUnits (left ++ right) = codeUnits left ++ codeUnits right := by
  fun_induction codeUnits left with
  | case1 low high rest ih =>
    simp only [length_cons] at even
    rw [cons_append, cons_append, codeUnits, ih (by omega), cons_append]
  | case2 left short =>
    match left, even, short with
    | [], _, _ => rfl
    | low :: high :: rest, _, short => exact absurd rfl (short low high rest)

theorem upcaseChunk_eq {buffer : Bytes} (even : buffer.length % 2 = 0) :
    upcaseChunk buffer s = ((codeUnits buffer).foldlM upcaseUnit s).map
      ({ · with checksum := buffer.foldl checksum32 s.checksum }) := by
  have units : (range ((buffer.length + 1) / 2)).map (fun i => leField buffer (2 * i) 2) =
      codeUnits buffer := by
    fun_induction codeUnits buffer with
    | case1 low high rest ih =>
      simp only [length_cons] at even
      rw [length_cons, length_cons,
        show (rest.length + 1 + 1 + 1) / 2 = (rest.length + 1) / 2 + 1 by omega,
        range_succ_eq_map, map_cons, map_map, ← ih (by omega)]
      rfl
    | case2 buffer short =>
      match buffer, even, short with
      | [], _, _ => rfl
      | low :: high :: rest, _, short => exact absurd rfl (short low high rest)
  rw [upcaseChunk, units, upcaseUnits_checksum]

theorem upcaseChunk_append {s : UpcaseState}
    (even : left.length % 2 = 0) (evenRight : right.length % 2 = 0) :
    upcaseChunk (left ++ right) s =
      (upcaseChunk left s).bind fun next => upcaseChunk right next := by
  have total : (left ++ right).length % 2 = 0 := by
    rw [length_append]
    omega
  rw [upcaseChunk_eq total, upcaseChunk_eq even, codeUnits_append even, foldlM_append, foldl_append]
  cases (codeUnits left).foldlM upcaseUnit s with
  | none => rfl
  | some next =>
    simp only [Option.map_some, Option.bind_some]
    rw [upcaseChunk_eq evenRight,
      upcaseUnits_checksum next (left.foldl checksum32 s.checksum), Option.map_map]
    rfl

theorem mapsAscii_append {position : Nat} {left right : List Nat}
    (first : MapsAscii position left) (second : MapsAscii (position + left.length) right) :
    MapsAscii position (left ++ right) := by
  intro p inside ascii
  rw [length_append] at inside
  by_cases early : p < left.length
  · rw [getElem?_append_left early]
    exact first p early ascii
  have hit := second (p - left.length) (by omega) (by omega)
  rw [getElem?_append_right (by omega), hit]
  congr 2
  omega

/-- What an accepted run of the decoder has decoded. Inside a skip the next unit is the
count. -/
theorem upcaseUnits_decode (run : units.foldlM upcaseUnit s = some final)
    (outside : final.skip = false) :
    if s.skip = true then ∃ n rest t, units = n :: rest ∧
      Decodes (s.mapped + n) rest t ∧
      final.mapped = s.mapped + n + t.length ∧
      MapsAscii s.mapped (range' s.mapped n ++ t)
    else ∃ t, Decodes s.mapped units t ∧ final.mapped = s.mapped + t.length ∧
      MapsAscii s.mapped t := by
  induction units generalizing s with
  | nil =>
    cases run
    rw [if_neg (by rw [outside]; decide)]
    exact ⟨[], .done, rfl, fun _ inside => absurd inside (Nat.not_lt_zero _)⟩
  | cons unit rest ih =>
    obtain ⟨next, step, run⟩ := Option.bind_eq_some_iff.mp run
    have later := ih run
    unfold upcaseUnit at step
    by_cases skipping : s.skip = true
    · rw [if_pos skipping] at step ⊢
      rw [Option.ite_none_left_eq_some, Option.ite_none_left_eq_some] at step
      obtain ⟨-, misses, step⟩ := step
      cases step
      obtain ⟨t, decodes, mapped, ascii⟩ := later
      refine ⟨unit, rest, t, rfl, decodes, mapped, mapsAscii_append ?_ ?_⟩
      · intro p inside _
        rw [length_range'] at inside
        rw [getElem?_range' inside, mandatoryUpcase, if_neg (by omega), Nat.one_mul]
      · rw [length_range']
        exact ascii
    rw [if_neg skipping] at step ⊢
    by_cases opens : unit = 0xffff ∧ s.mapped ≠ 65535
    · rw [if_pos opens] at step
      cases step
      obtain ⟨n, rest', t, rfl, decodes, mapped, ascii⟩ := later
      refine ⟨range' s.mapped n ++ t, ?_, ?_, ascii⟩
      · rw [opens.1]
        exact .skip opens.2 decodes
      · rw [length_append, length_range', mapped]
        exact Nat.add_assoc ..
    rw [if_neg opens, Option.ite_none_left_eq_some] at step
    obtain ⟨fine, step⟩ := step
    cases step
    rw [if_neg skipping] at later
    obtain ⟨t, decodes, mapped, ascii⟩ := later
    have first : MapsAscii s.mapped [unit] := by
      intro p inside small
      obtain rfl : p = 0 := Nat.lt_one_iff.mp inside
      simp only [not_or, Classical.not_not, not_and] at fine
      rw [fine.2 small]
      rfl
    refine ⟨unit :: t, .literal opens decodes, ?_, mapsAscii_append first ascii⟩
    rw [mapped, length_cons]
    dsimp only
    omega

theorem UpcaseAccepts.decodes {checksum : Nat} (accepts : UpcaseAccepts checksum stream) :
    (∃ t, Decodes 0 (codeUnits stream) t ∧ t.length = 65536 ∧
      ∀ unit < 128, t[unit]? = some (mandatoryUpcase unit)) ∧
      stream.foldl checksum32 0 = checksum := by
  obtain ⟨even, -, final, run, outside, mapped, sum⟩ := accepts
  rw [upcaseChunk_eq even] at run
  obtain ⟨reached, units, rfl⟩ := Option.map_eq_some_iff.mp run
  have decoded := upcaseUnits_decode units outside
  obtain ⟨t, decodes, n, ascii⟩ := decoded
  have full : t.length = 65536 := by
    dsimp only at mapped n
    omega
  refine ⟨⟨t, decodes, full, fun unit small => ?_⟩, sum⟩
  have hit := ascii unit (by omega) (by dsimp only; omega)
  simpa using hit

/-! ## Reading -/

/-- From a world like the start, the action gives this result unless a read fails. -/
def Gives {α : Type} (m : Nat) (start : World) (act : Driver α) (result : Option α) : Prop :=
  ∀ world, Reserved m start world → Reserved m start (act world).2 ∧
    ((act world).1 = result ∨ (act world).1 = none ∧ ¬∀ n, start.env.read n = true)

namespace Gives

variable {α β : Type} {start : World} {act : Driver α} {r : Option α}

theorem pure {v : α} : Gives m start (Pure.pure v : Driver α) (some v) :=
  fun _ eq => ⟨eq, .inl rfl⟩

theorem ofOption {out : Option α} : Gives m start (ofOption out) out := by
  intro w eq
  cases out with
  | none => exact ⟨eq, .inl rfl⟩
  | some v => exact ⟨eq, .inl rfl⟩

variable {cond : Prop} {rest : Unit → Driver α}

theorem require [Decidable cond] :
    Gives m start (require cond) (if cond then some () else none) := by
  intro w eq
  rw [require_run]
  exact ⟨eq, .inl rfl⟩

theorem bind {rest : α → Driver β} {later : α → Option β} (first : Gives m start act r)
    (second : ∀ v, r = some v → Gives m start (rest v) (later v)) :
    Gives m start (act >>= rest) (r.bind later) := by
  intro w eq
  have start := first w eq
  rw [bind_run]
  rcases out : act w with ⟨_ | v, next⟩
  · rw [out] at start
    obtain ⟨eq', rfl | failed⟩ := start
    · exact ⟨eq', .inl rfl⟩
    · exact ⟨eq', .inr ⟨rfl, failed.2⟩⟩
  rw [out] at start
  obtain ⟨eq', rfl | failed⟩ := start
  · exact second v rfl next eq'
  · cases failed.1

theorem check [Decidable cond] (later : Gives m start (rest ()) r) (holds : cond) :
    Gives m start (Act.require cond >>= rest) r := by
  intro w eq
  rw [Act.bind_run, Act.require_run, if_pos holds]
  exact later w eq

theorem refuse [Decidable cond]
    (fails : ¬cond) : Gives m start (Act.require cond >>= rest) none := by
  intro w eq
  rw [Act.bind_run, Act.require_run, if_neg fails]
  exact ⟨eq, .inl rfl⟩

theorem volume {rest : Volume → Driver β} {r : Option β}
    (later : Gives m start (rest (start.volume m)) r) :
    Gives m start (gets (·.volume m) >>= rest) r := by
  intro w eq
  have known := later w eq
  rw [← congrFun eq.volume m] at known
  exact known

theorem volumeRead (inside : off + len ≤ (start.volume m).imageSize) :
    Gives m start (volumeRead m off len) (some ((start.medium m).read off len)) := by
  refine volume (check ?_ (by omega))
  intro w eq
  have kept := (reserving m).trans eq (draw_reserves Env.read w)
  have medium : (start.medium m).read off len = (w.medium m).read off len := by
    rw [eq.medium]
  by_cases reads : w.env.read w.tick = true
  · simp only [bind_run, draw, require_run, if_pos reads, medium]
    exact ⟨kept, .inl rfl⟩
  simp only [bind_run, draw, require_run, if_neg reads]
  refine ⟨kept, .inr ⟨trivial, fun calm => reads ?_⟩⟩
  rw [eq.env]
  exact calm _

theorem clusterBase {c : Nat} :
    Gives m start (clusterBase m c) (clusterOffset (start.volume m) c) :=
  volume ofOption

theorem nextCluster (laid : (start.volume m).Laid)
    (p : clusterOffset (start.volume m) c = some base) :
    Gives m start (nextCluster m c) (some (fatEntry start m c)) := by
  refine volume ?_
  have fat := laid.fatEnd
  have heap := laid.heapEnd
  rw [clusterOffset, Option.ite_none_left_eq_some] at p
  exact (volumeRead (by omega)).bind fun b _ => pure

end Gives

/-! ## The stream -/

theorem upcaseChunk_nil : upcaseChunk [] s = some s := rfl

theorem upcaseCluster_gives {b : Nat} (inside : base + b ≤ (w.volume m).imageSize)
    (even : b % 2 = 0) (n off : Nat) (enough : b - off ≤ n)
    (whole : off % 2 = 0) (s : UpcaseState) :
    Gives m w (upcaseCluster m base n off b s)
      (upcaseChunk ((w.medium m).read (base + off) (b - off)) s) := by
  induction n generalizing off s with
  | zero =>
    rw [show b - off = 0 by omega, Store.read]
    exact Gives.pure
  | succ n ih =>
    unfold upcaseCluster
    split
    next ended =>
      rw [show b - off = 0 by omega, Store.read, upcaseChunk_nil]
      exact Gives.pure
    next more =>
      have parts : b - off = min (b - off) 512 +
          (b - (off + min (b - off) 512)) := by omega
      conv => arg 4; rw [parts]
      rw [Store.read_add, upcaseChunk_append (by simp; omega) (by simp; omega), Nat.add_assoc]
      change Gives m w _ ((some ((w.medium m).read (base + off)
        (min (b - off) 512))).bind fun buffer => (upcaseChunk buffer s).bind _)
      refine (Gives.volumeRead (by omega)).bind fun buffer _ => ?_
      refine Gives.ofOption.bind fun next _ => ?_
      exact ih _ (by omega) (by omega) next

theorem systemStreamLoop_step (laid : (w.volume m).Laid) {n remaining : Nat}
    (even : remaining % 2 = 0) (later : UpcaseState → Option Unit) (rest : ∀ next, Gives m w
      (if remaining ≤ min remaining (w.volume m).clusterSize then
        require (exfatFatChainEnd ≤ fatEntry w m c ∧ (true = false ∨
          (next.skip = false ∧ next.mapped = 65536 ∧
            next.checksum = (w.volume m).upcaseTableChecksum)))
      else systemStreamLoop m true n (fatEntry w m c)
        (remaining - min remaining (w.volume m).clusterSize) next) (later next)) :
    Gives m w (systemStreamLoop m true (n + 1) c remaining s)
      ((clusterOffset (w.volume m) c).bind fun base =>
        (upcaseChunk ((w.medium m).read base (min remaining (w.volume m).clusterSize))
          s).bind later) := by
  have aligned := laid.aligned
  refine Gives.volume ?_
  refine Gives.clusterBase.bind fun base p => ?_
  have fits : base + (w.volume m).clusterSize ≤ (w.volume m).imageSize := by
    rw [clusterOffset, Option.ite_none_left_eq_some, Option.ite_none_left_eq_some] at p
    obtain ⟨-, inside, hit⟩ := p
    rw [Option.some.injEq] at hit
    omega
  refine Gives.bind (upcaseCluster_gives (by omega) (by omega) _ 0 (Nat.sub_le _ _) rfl s)
    fun next _ => ?_
  change Gives m w _ ((some (fatEntry w m c)).bind fun _ => later next)
  refine (Gives.nextCluster laid p).bind fun entry hit => ?_
  cases hit
  exact rest next

theorem systemStreamLoop_gives (laid : (w.volume m).Laid) (n c remaining : Nat)
    (enough : remaining ≤ n) (some_ : remaining ≠ 0) (even : remaining % 2 = 0) (s : UpcaseState) :
    ∃ r, Gives m w (systemStreamLoop m true n c remaining s) r ∧
      (r = some () ↔ ∃ stream, SystemStream w m c remaining stream ∧
        s.Accepts (w.volume m).upcaseTableChecksum stream) := by
  induction n generalizing c remaining s with
  | zero => omega
  | succ n ih =>
    have wide := laid.cluster
    have aligned := laid.aligned
    by_cases last : remaining ≤ (w.volume m).clusterSize
    · refine ⟨_, systemStreamLoop_step laid even (fun next =>
        if exfatFatChainEnd ≤ fatEntry w m c ∧ (true = false ∨
          (next.skip = false ∧ next.mapped = 65536 ∧
            next.checksum = (w.volume m).upcaseTableChecksum)) then some () else none)
        fun next => ?_, ?_⟩
      · rw [if_pos (by omega)]
        exact Gives.require
      rw [min_eq_left last]
      constructor
      · intro passed
        obtain ⟨base, p, passed⟩ := Option.bind_eq_some_iff.mp passed
        obtain ⟨final, chunk, passed⟩ := Option.bind_eq_some_iff.mp passed
        rw [Option.ite_none_right_eq_some] at passed
        exact ⟨_, .last p last passed.1.1, final, chunk, passed.1.2.resolve_left (by decide)⟩
      rintro ⟨stream, hit, final, chunk, accepted⟩
      cases hit with
      | last p _ ends =>
        rw [p, Option.bind_some, chunk, Option.bind_some, if_pos ⟨ends, .inr accepted⟩]
      | more _ longer => omega
    choose later gives accepts using fun next => ih (fatEntry w m c)
      (remaining - (w.volume m).clusterSize) (by omega) (by omega) (by omega) next
    refine ⟨_, systemStreamLoop_step laid even later fun next => ?_, ?_⟩
    · rw [if_neg (by omega), min_eq_right (by omega)]
      exact gives next
    rw [min_eq_right (by omega)]
    constructor
    · intro passed
      obtain ⟨base, p, passed⟩ := Option.bind_eq_some_iff.mp passed
      obtain ⟨next, chunk, passed⟩ := Option.bind_eq_some_iff.mp passed
      obtain ⟨rest, hit, final, run, accepted⟩ := (accepts next).mp passed
      refine ⟨_, .more p (by omega) hit, final, ?_, accepted⟩
      have len := hit.length_eq
      rw [upcaseChunk_append (by simp; omega) (by omega), chunk]
      exact run
    rintro ⟨stream, hit, final, chunk, accepted⟩
    cases hit with
    | last => omega
    | @more _ base _ rest p longer hit =>
      have len := hit.length_eq
      rw [upcaseChunk_append (by simp; omega) (by omega)] at chunk
      obtain ⟨next, first, run⟩ := Option.bind_eq_some_iff.mp chunk
      rw [p, Option.bind_some, first]
      exact (accepts next).mpr ⟨rest, hit, final, run, accepted⟩

theorem UpcaseAccepts.nonempty {checksum : Nat} (accepts : UpcaseAccepts checksum []) : False := by
  obtain ⟨-, -, final, run, -, mapped, -⟩ := accepts
  cases run
  cases mapped

theorem validateSystemStream_gives (laid : (w.volume m).Laid) {c size : Nat} :
    ∃ r, Gives m w (validateSystemStream m c size true) r ∧
      (r = some () ↔ size ≤ (w.volume m).clusterCount * (w.volume m).clusterSize ∧
        ∃ stream, SystemStream w m c size stream ∧
          UpcaseAccepts (w.volume m).upcaseTableChecksum stream) := by
  by_cases shape : size ≠ 0 ∧
      size ≤ (w.volume m).clusterCount * (w.volume m).clusterSize ∧
      (true = false ∨ (size % 2 = 0 ∧ size ≤ 131072))
  · obtain ⟨some_, fits, even, short⟩ :=
      shape.imp_right (And.imp_right (Or.resolve_left · (by decide)))
    obtain ⟨r, gives, accepts⟩ := systemStreamLoop_gives laid size c size
      le_rfl some_ even { checksum := 0, mapped := 0, skip := false }
    refine ⟨r, Gives.volume (gives.check shape), ?_⟩
    rw [accepts, and_iff_right fits]
    refine exists_congr fun stream => and_congr_right fun hit => ?_
    rw [UpcaseAccepts, hit.length_eq, and_iff_right even, and_iff_right short]
  refine ⟨none, Gives.volume (Gives.refuse shape), ?_⟩
  refine iff_of_false (by simp) ?_
  rintro ⟨fits, stream, hit, accepts⟩
  have len := hit.length_eq
  refine shape ⟨?_, fits, .inr ⟨len ▸ accepts.1, len ▸ accepts.2.1⟩⟩
  rintro rfl
  rw [length_eq_zero_iff.mp len] at accepts
  exact accepts.nonempty

/-- The table is accepted only if its chain ends exactly at its size, its bytes have the recorded
checksum and decode to a mapping of every code unit that gives ASCII its upper case. Where the reads
succeed, the verdict is the one on the bytes in one buffer. -/
theorem validateSystemStream_upcase (world : World) (m cluster size : Nat)
    (laid : (world.volume m).Laid) :
    ((validateSystemStream m cluster size true world).1 = some () →
      ∃ stream, SystemStream world m cluster size stream ∧
        (∃ table, Decodes 0 (codeUnits stream) table ∧ table.length = 65536 ∧
          ∀ unit < 128, table[unit]? = some (mandatoryUpcase unit)) ∧
        stream.foldl checksum32 0 = (world.volume m).upcaseTableChecksum) ∧
      ((∀ n, world.env.read n = true) →
        ∀ stream, SystemStream world m cluster size stream →
          ((validateSystemStream m cluster size true world).1 = some () ↔
            size ≤ (world.volume m).clusterCount * (world.volume m).clusterSize ∧
              UpcaseAccepts (world.volume m).upcaseTableChecksum stream)) := by
  obtain ⟨result, gives, passes⟩ := validateSystemStream_gives laid
  obtain ⟨-, verdict⟩ := gives world ((reserving m).refl world)
  constructor
  · intro accepted
    rcases verdict with verdict | failed
    · obtain ⟨-, stream, found, accepts⟩ := passes.mp (verdict.symm.trans accepted)
      exact ⟨stream, found, accepts.decodes⟩
    · cases failed.1.symm.trans accepted
  intro calm stream found
  rw [verdict.resolve_right fun failed => failed.2 calm, passes]
  refine and_congr_right fun _ => ⟨?_, fun accepts => ⟨stream, found, accepts⟩⟩
  rintro ⟨other, found', accepts⟩
  rw [found.unique found']
  exact accepts

/-- The formatted medium, mounted as far as its up-case table is known. -/
def Sample.scanned : World :=
  { powerOn 0 with
    mounts := fun _ => { emptyMount with volume := { emptyMount.volume with
      fatOffsetBytes := 24 * 512, clusterHeapOffsetBytes := 25 * 512, clusterCount := 32
      clusterSize := 512, imageSize := 1048576, upcaseTableChecksum := 1312377569 } } }

/-- The table of the formatted medium, 60 bytes in cluster 4. -/
theorem validateSystemStream_upcase_sample :
    (validateSystemStream 0 4 60 true scanned).1 = some () ∧
      ∃ stream, SystemStream scanned 0 4 60 stream ∧
        stream.foldl checksum32 0 = 1312377569 := by
  have laid : (scanned.volume 0).Laid := by constructor <;> decide +kernel
  have accepted : (validateSystemStream 0 4 60 true scanned).1 = some () := by decide +kernel
  obtain ⟨stream, found, -, sum⟩ := (validateSystemStream_upcase scanned 0 4 60 laid).1 accepted
  exact ⟨accepted, stream, found, sum⟩

end SrvrOS.Exfat
