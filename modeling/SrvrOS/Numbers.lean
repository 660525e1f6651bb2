import Mathlib

/-!
# Numbers in text

`parse_integer` of `posix_alloc.c` keeps the magnitude under a limit, and past it only counts the
digits. The functions of `posix_wchar.c` call those for narrow text on a copy of at most 127
characters.
-/

namespace SrvrOS.Numbers

open List

inductive Errno
  | einval | erange
  deriving DecidableEq

def isspace (c : Char) : Bool := c ∈ [' ', '\x0c', '\n', '\r', '\t', '\x0b']

/-- `digit_value`, with `none` for its -1. -/
def digitValue (c : Char) : Option Nat :=
  if c.isDigit then some (c.toNat - '0'.toNat)
  else if c.isLower then some (c.toNat - 'a'.toNat + 10)
  else if c.isUpper then some (c.toNat - 'A'.toNat + 10)
  else none

def isDigit (base : Nat) (c : Char) : Bool := (digitValue c).any (· < base)

def skipSign : List Char → Bool × List Char
  | '-' :: rest => (true, rest)
  | '+' :: rest => (false, rest)
  | rest => (false, rest)

def skipMark (base : Int) (text : List Char) : Nat × List Char :=
  if (base = 0 ∨ base = 16) ∧ text[0]? = some '0' ∧ (text[1]? = some 'x' ∨ text[1]? = some 'X') ∧
      text[2]?.any (isDigit 16) then (16, text.drop 2)
  else (if base = 0 then if text[0]? = some '0' then 8 else 10 else base.toNat, text)

/-- A turn of the loop over the digits, on `value` and `overflow`. -/
def readDigit (base limit : Nat) (s : Nat × Bool) (c : Char) : Nat × Bool :=
  let digit := (digitValue c).getD 0
  if (limit - digit) / base < s.1 then (s.1, true)
  else if s.2 then s else (s.1 * base + digit, false)

structure Numeral where
  negative : Bool
  radix : Nat
  digits : List Char
  stop : Nat

/-- The part of `parse_integer` before its loop; the loop reads `digits` and ends at `stop`. -/
def numeral (base : Int) (text : List Char) : Numeral :=
  let sign := skipSign (text.dropWhile isspace)
  let mark := skipMark base sign.2
  let digits := mark.2.takeWhile (isDigit mark.1)
  ⟨sign.1, mark.1, digits, text.length - (mark.2.length - digits.length)⟩

structure Parsed where
  (value stop : Nat)
  (negative overflow : Bool)
  errno : Option Errno

def parseInteger (text : List Char) (base : Int) (signedResult : Bool) : Parsed :=
  if base ≠ 0 ∧ (base < 2 ∨ 36 < base) then ⟨0, 0, false, false, some .einval⟩
  else
    let n := numeral base text
    let limit := if signedResult then 2 ^ 63 - 1 + n.negative.toNat else 2 ^ 64 - 1
    let read := n.digits.foldl (readDigit n.radix limit) (0, false)
    let stop := if n.digits = [] then 0 else n.stop
    if read.2 then ⟨limit, stop, n.negative, true, some .erange⟩
    else ⟨read.1, stop, n.negative, false, none⟩

def strtoll (base : Int) (text : List Char) : Int × Nat × Option Errno :=
  let p := parseInteger text base true
  (if !p.negative then p.value else if p.value = 2 ^ 63 then -2 ^ 63 else -p.value, p.stop, p.errno)

def strtoull (base : Int) (text : List Char) : Int × Nat × Option Errno :=
  let p := parseInteger text base false
  (if p.negative && !p.overflow then (0 - p.value) % 2 ^ 64 else p.value, p.stop, p.errno)

def wideToNarrow (capacity : Nat) (source : List Char) : List Char :=
  (source.takeWhile (·.toNat ≤ 0x7f)).take (capacity - 1)

/-- `wcstol`, `wcstoll`, `wcstoul`, `wcstoull`, `wcstof` and `wcstod`, given the function for narrow
text that each of them calls. -/
def viaNarrow {α : Type} (narrow : List Char → α) (text : List Char) : α :=
  narrow (wideToNarrow 128 text)

def wcstoll (base : Int) := viaNarrow (strtoll base)

/-! ## What a number is -/

def digitRow : List Char := "0123456789abcdefghijklmnopqrstuvwxyz".toList

/-- What a character is worth as a digit. -/
def worth (c : Char) : Option Nat := digitRow.idxOf? c.toLower

/-- The number that digits stand for. -/
def magnitude (base : Nat) (digits : List Char) : Nat :=
  digits.foldl (fun value c => value * base + (worth c).getD 0) 0

def Blank (c : Char) : Prop := c.toNat = 32 ∨ 9 ≤ c.toNat ∧ c.toNat ≤ 13

/-- `mark` may stand before the digits of a number read with `base`, and gives their `radix`. -/
def Marked (base : Int) (mark digits : List Char) (radix : Nat) : Prop :=
  mark = [] ∧ radix = (if base = 0 then if digits[0]? = some '0' then 8 else 10 else base.toNat) ∨
    (mark = ['0', 'x'] ∨ mark = ['0', 'X']) ∧ (base = 0 ∨ base = 16) ∧ radix = 16

/-- A beginning of a text that reads as a number. -/
structure Subject (base : Int) (text : List Char) where
  (blanks sign mark digits rest : List Char)
  radix : Nat
  split : text = blanks ++ (sign ++ (mark ++ (digits ++ rest)))
  blank : ∀ c ∈ blanks, Blank c
  signed : sign = [] ∨ sign = ['-'] ∨ sign = ['+']
  marked : Marked base mark digits radix
  nonempty : digits ≠ []
  valid : ∀ c ∈ digits, (worth c).any (· < radix)

namespace Subject

variable {base : Int} {text : List Char}

def length (s : Subject base text) : Nat :=
  s.blanks.length + s.sign.length + s.mark.length + s.digits.length

def value (s : Subject base text) : Int :=
  if s.sign = ['-'] then -magnitude s.radix s.digits else magnitude s.radix s.digits

end Subject

theorem isspace_iff {c : Char} : isspace c ↔ Blank c := by
  simp only [isspace, Blank, decide_eq_true_eq, mem_cons, ← Char.toNat_inj]
  simp
  omega

theorem digitValue_eq (c : Char) : digitValue c = worth c := by
  by_cases ascii : c.toNat < 128
  · have each : ∀ n < 128, digitValue (.ofNat n) = worth (.ofNat n) := by decide +kernel
    simpa using each _ ascii
  have row : digitRow.all (·.toNat < 128) := by decide +kernel
  have absent : c ∉ digitRow := fun member => by simpa [ascii] using all_eq_true.mp row c member
  have past (bound : UInt32) (low : bound.toNat < 128) : ¬c.val ≤ bound :=
    fun below => ascii (Nat.lt_of_le_of_lt below low)
  have same : c.toLower = c := by simp [Char.toLower, past]
  simp [worth, same, idxOf?_eq_none_iff.mpr absent, digitValue, Char.isDigit, Char.isLower,
    Char.isUpper, past]

/-! ## The loop -/

/-- What `value` and `overflow` say of the magnitude read so far. -/
def Tracks (limit : Nat) (s : Nat × Bool) (exact : Nat) : Prop :=
  if s.2 then limit < exact else s.1 = exact ∧ exact ≤ limit

theorem Tracks.readDigit {base limit exact : Nat} {s : Nat × Bool} {c : Char}
    (tracks : Tracks limit s exact) (pos : 0 < base) (large : base ≤ limit)
    (digit : isDigit base c) :
    Tracks limit (readDigit base limit s c) (exact * base + (worth c).getD 0) := by
  rw [← digitValue_eq]
  obtain ⟨d, value, below⟩ := (Option.any_eq_true _ _).mp digit
  have fits : (limit - d) / base < s.1 ↔ limit < s.1 * base + d := by
    rw [Nat.div_lt_iff_lt_mul pos]
    have := of_decide_eq_true below
    omega
  have grows : exact ≤ exact * base := Nat.le_mul_of_pos_right _ pos
  simp only [Tracks, Numbers.readDigit, value, Option.getD_some, fits] at tracks ⊢
  split at tracks
  next past => grind
  next within =>
    obtain ⟨rfl, -⟩ := tracks
    grind

theorem Tracks.foldl {base limit exact : Nat} {s : Nat × Bool} (tracks : Tracks limit s exact)
    (pos : 0 < base) (large : base ≤ limit) {digits : List Char}
    (valid : ∀ c ∈ digits, isDigit base c) :
    Tracks limit (digits.foldl (Numbers.readDigit base limit) s)
      (digits.foldl (fun value c => value * base + (worth c).getD 0) exact) := by
  induction digits generalizing s exact with
  | nil => exact tracks
  | cons c rest ih =>
    rw [forall_mem_cons] at valid
    exact ih (tracks.readDigit pos large valid.1) valid.2

/-! ## The part before it -/

theorem skipSign_spec (text : List Char) : ∃ sign, (sign = [] ∨ sign = ['-'] ∨ sign = ['+']) ∧
    text = sign ++ (skipSign text).2 ∧ (sign = ['-'] ↔ (skipSign text).1 = true) := by
  fun_cases skipSign text with
  | case1 rest => exact ⟨['-'], by simp⟩
  | case2 rest => exact ⟨['+'], by simp⟩
  | case3 => exact ⟨[], by simp⟩

theorem skipMark_cases (base : Int) (text : List Char) :
    (∃ x c rest, text = '0' :: x :: c :: rest ∧ (x = 'x' ∨ x = 'X') ∧ isDigit 16 c ∧
      (base = 0 ∨ base = 16) ∧ skipMark base text = (16, c :: rest)) ∨
    skipMark base text =
      (if base = 0 then if text[0]? = some '0' then 8 else 10 else base.toNat, text) := by
  fun_cases skipMark base text with
  | case1 holds =>
    match text with
    | [] | [_] | [_, _] => simp at holds
    | z :: x :: c :: rest =>
      obtain ⟨bases, zero, mark, hex⟩ := holds
      cases zero
      exact .inl ⟨x, c, rest, rfl, by simpa using mark, hex, bases, rfl⟩
  | case2 => exact .inr rfl

theorem skipMark_spec (base : Int) (text : List Char) :
    ∃ mark, text = mark ++ (skipMark base text).2 ∧
      Marked base mark (skipMark base text).2 (skipMark base text).1 := by
  rcases skipMark_cases base text with ⟨x, c, rest, eq, mark, -, bases, skip⟩ | skip <;> rw [skip]
  · exact ⟨['0', x], eq, .inr ⟨by simpa using mark, bases, rfl⟩⟩
  · exact ⟨[], rfl, .inl ⟨rfl, rfl⟩⟩

namespace Subject

variable {base : Int} {text more : List Char}

theorem read (s : Subject base text) : ∀ c ∈ s.digits, isDigit s.radix c := by
  intro c member
  rw [isDigit, digitValue_eq]
  exact s.valid c member

theorem exists_of_numeral (found : (numeral base text).digits ≠ []) :
    ∃ s : Subject base text, (s.sign = ['-'] ↔ (numeral base text).negative = true) ∧
      s.radix = (numeral base text).radix ∧ s.digits = (numeral base text).digits ∧
      s.length = (numeral base text).stop := by
  obtain ⟨sign, signed, cut, negative⟩ := skipSign_spec (text.dropWhile isspace)
  obtain ⟨mark, next, marked⟩ := skipMark_spec base (skipSign (text.dropWhile isspace)).2
  simp only [numeral] at found ⊢
  generalize skipMark base (skipSign (text.dropWhile isspace)).2 = m at *
  have digits := @takeWhile_append_dropWhile _ (isDigit m.1) m.2
  have split : text = text.takeWhile isspace ++ (sign ++ (mark ++
      (m.2.takeWhile (isDigit m.1) ++ m.2.dropWhile (isDigit m.1)))) := by
    rw [digits, ← next, ← cut, takeWhile_append_dropWhile]
  have head := congrArg (·[0]?) digits
  simp only [getElem?_append_left (length_pos_of_ne_nil found)] at head
  refine ⟨⟨_, sign, mark, _, _, m.1, split, fun _ => isspace_iff.mp ∘ mem_takeWhile_imp, signed,
    by rwa [Marked, head], found, fun c member => ?_⟩, negative, rfl, rfl, ?_⟩
  · rw [← digitValue_eq]
    exact @mem_takeWhile_imp _ (isDigit m.1) _ _ member
  have total := congrArg List.length split
  have := congrArg List.length digits
  simp only [length_append, length] at total this ⊢
  omega

theorem special_not_digit :
    ∀ c ∈ [' ', '\x0c', '\n', '\r', '\t', '\x0b', '-', '+'], digitValue c = none := by
  simp only [forall_mem_cons, not_mem_nil, false_imp_iff, implies_true]
  decide

theorem skipped (s : Subject base text) :
    skipSign (text.dropWhile isspace) =
      (decide (s.sign = ['-']), s.mark ++ (s.digits ++ s.rest)) := by
  obtain ⟨d, digits, eq⟩ := exists_cons_of_ne_nil s.nonempty
  obtain ⟨c, more, body, digit⟩ : ∃ c more, s.mark ++ (s.digits ++ s.rest) = c :: more ∧
      digitValue c ≠ none := by
    rcases s.marked with ⟨mark, -⟩ | ⟨mark | mark, -⟩ <;> rw [mark, eq]
    · refine ⟨d, _, rfl, fun none => ?_⟩
      have valid := s.read d (by simp [eq])
      simp [isDigit, none] at valid
    · exact ⟨'0', _, rfl, by decide⟩
    · exact ⟨'0', _, rfl, by decide⟩
  have cut := congrArg (dropWhile isspace) s.split
  rw [dropWhile_append_of_pos fun c member => isspace_iff.mpr (s.blank c member), body] at cut
  rw [cut, body]
  have special := mt (special_not_digit c) digit
  simp only [mem_cons, not_or] at special
  rcases s.signed with sign | sign | sign <;> rw [sign]
  · simp [isspace, special, skipSign]
  · rfl
  · rfl

/-- The code takes the mark of the number for what it is, or it reads on after `0x`. -/
theorem skip_cases (s : Subject base text) :
    skipMark base (s.mark ++ (s.digits ++ s.rest)) = (s.radix, s.digits ++ s.rest) ∨
      (numeral base text).digits ≠ [] ∧ s.length < (numeral base text).stop := by
  obtain ⟨d, digits, eq⟩ := exists_cons_of_ne_nil s.nonempty
  rcases s.marked with ⟨mark₀, radix⟩ | ⟨mark, bases, radix⟩
  · rw [mark₀, nil_append]
    rcases skipMark_cases base (s.digits ++ s.rest) with
      ⟨x, c, rest, cut, mark, hex, bases, skip⟩ | skip
    · have small : isDigit s.radix x = false := by
        have head := congrArg (·[0]?) cut
        simp only [getElem?_append_left (length_pos_of_ne_nil s.nonempty)] at head
        rw [radix, head]
        rcases bases with rfl | rfl <;> rcases mark with rfl | rfl <;> rfl
      have single : digits = [] := by
        cases digits with
        | nil => rfl
        | cons y digits =>
          simp only [eq, cons_append, cons.injEq] at cut
          have valid := s.read y (by simp [eq])
          rw [cut.2.1, small] at valid
          contradiction
      have total := congrArg List.length s.split
      have := congrArg List.length cut
      simp only [numeral, s.skipped, mark₀, nil_append, skip, takeWhile_cons_of_pos hex, length]
      simp [eq, single, mark₀] at this total ⊢
      omega
    · refine .inl ?_
      rw [skip, radix, getElem?_append_left (length_pos_of_ne_nil s.nonempty)]
  refine .inl ?_
  have hex := s.read d (by simp [eq])
  rw [radix] at hex ⊢
  rcases mark with mark | mark <;> simp [skipMark, mark, eq, bases, hex]

theorem numeral_eq (s : Subject base text)
    (skip : skipMark base (s.mark ++ (s.digits ++ s.rest)) = (s.radix, s.digits ++ s.rest)) :
    numeral base text = ⟨decide (s.sign = ['-']), s.radix,
      s.digits ++ s.rest.takeWhile (isDigit s.radix),
      s.length + (s.rest.takeWhile (isDigit s.radix)).length⟩ := by
  have total := congrArg List.length s.split
  simp only [numeral, s.skipped, skip, takeWhile_append_of_pos s.read, Numeral.mk.injEq, true_and]
  have := (takeWhile_sublist (isDigit s.radix) (l := s.rest)).length_le
  simp only [length, length_append] at total ⊢
  omega

/-- A beginning that reads as a number is not longer than the one that the code takes. -/
theorem length_le (s : Subject base text) :
    (numeral base text).digits ≠ [] ∧ s.length ≤ (numeral base text).stop := by
  rcases s.skip_cases with skip | ⟨found, longer⟩
  · simp [s.numeral_eq skip, s.nonempty]
  · exact ⟨found, longer.le⟩

theorem numeral_of_longest (s : Subject base text) (longest : (numeral base text).stop ≤ s.length) :
    numeral base text = ⟨decide (s.sign = ['-']), s.radix, s.digits, s.length⟩ := by
  rcases s.skip_cases with skip | ⟨-, longer⟩
  · have eq := s.numeral_eq skip
    have none : s.rest.takeWhile (isDigit s.radix) = [] :=
      length_eq_zero_iff.mp (by rw [eq] at longest; simpa using longest)
    rw [eq, none, append_nil]
    rfl
  · omega

/-- A number at the beginning of a text, in a longer text. -/
def extend (s : Subject base text) (more : List Char) : Subject base (text ++ more) :=
  { s with
    rest := s.rest ++ more
    split := by conv_lhs => rw [s.split]; simp only [append_assoc] }

def cut (s : Subject base (text ++ more)) (fits : s.length ≤ text.length) : Subject base text :=
  { s with
    rest := text.drop s.length
    split := by
      have start := congrArg (take s.length) s.split
      rw [take_append_of_le_length fits, ← append_assoc, ← append_assoc, ← append_assoc,
        take_left' (by simp only [length_append, length])] at start
      conv_lhs => rw [← take_append_drop s.length text, start]
      simp only [append_assoc] }

theorem numeral_append (base : Int) (text more : List Char) :
    let n := numeral base (text ++ more)
    if n.digits = [] then (numeral base text).digits = []
    else n.stop ≤ text.length → numeral base text = n := by
  intro n
  split
  next none =>
    by_contra found
    obtain ⟨s, -⟩ := exists_of_numeral found
    exact (s.extend more).length_le.1 none
  next found =>
    intro fits
    obtain ⟨s, -, -, -, length⟩ := exists_of_numeral found
    let short := s.cut (length.trans_le fits)
    obtain ⟨other, -, -, -, stop⟩ := exists_of_numeral short.length_le.1
    have longest : other.length ≤ n.stop := (other.extend more).length_le.2
    rw [stop, ← length] at longest
    exact (short.numeral_of_longest longest).trans (s.numeral_of_longest length.ge).symm

end Subject

theorem parseInteger_eq {base : Int} (valid : base = 0 ∨ 2 ≤ base ∧ base ≤ 36) {text : List Char}
    {signed : Bool} {n : Numeral} (eq : numeral base text = n) :
    let limit := if signed then 2 ^ 63 - 1 + n.negative.toNat else 2 ^ 64 - 1
    let stop := if n.digits = [] then 0 else n.stop
    parseInteger text base signed = if magnitude n.radix n.digits ≤ limit then
      ⟨magnitude n.radix n.digits, stop, n.negative, false, none⟩
      else ⟨limit, stop, n.negative, true, some .erange⟩ := by
  intro limit stop
  have radix : 0 < n.radix ∧ n.radix ≤ 36 := by
    obtain ⟨_, -, marked⟩ := skipMark_spec base (skipSign (text.dropWhile isspace)).2
    simp only [← eq, numeral, Marked] at marked ⊢
    grind
  have large : 36 ≤ limit := by grind
  have start : Tracks limit (0, false) 0 := by simp [Tracks]
  have digits : ∀ c ∈ n.digits, isDigit n.radix c := by
    subst eq
    exact fun _ => mem_takeWhile_imp
  have tracks : Tracks limit (n.digits.foldl (readDigit n.radix limit) (0, false))
      (magnitude n.radix n.digits) := start.foldl radix.1 (radix.2.trans large) digits
  rw [parseInteger, if_neg (by omega), eq]
  change (if (n.digits.foldl (readDigit n.radix limit) (0, false)).2 then
    (⟨limit, stop, _, _, _⟩ : Parsed) else _) = _
  rw [Tracks] at tracks
  split at tracks
  next past => rw [if_pos past, if_neg (by omega)]
  next within => rw [if_neg within, if_pos tracks.2, ← tracks.1]

theorem strto_none {base : Int} (valid : base = 0 ∨ 2 ≤ base ∧ base ≤ 36) {text : List Char}
    (none : (numeral base text).digits = []) :
    strtoll base text = (0, 0, .none) ∧ strtoull base text = (0, 0, .none) := by
  simp [strtoll, strtoull, parseInteger_eq valid rfl, none, magnitude]

/-- `strtoll` and `strtoull` read the longest beginning that is a number, and saturate its value. -/
theorem strto_exact (base : { base : Int // base = 0 ∨ 2 ≤ base ∧ base ≤ 36 }) (text : List Char) :
    IsEmpty (Subject base text) ∧ strtoll base text = (0, 0, none) ∧
      strtoull base text = (0, 0, none) ∨
    ∃ s : Subject base text, (∀ other : Subject base text, other.length ≤ s.length) ∧
      strtoll base text = (max (-2 ^ 63) (min (2 ^ 63 - 1) s.value), s.length,
        if -2 ^ 63 ≤ s.value ∧ s.value < 2 ^ 63 then none else some .erange) ∧
      strtoull base text = if magnitude s.radix s.digits < 2 ^ 64 then
        (s.value % 2 ^ 64, s.length, none) else (2 ^ 64 - 1, s.length, some .erange) := by
  obtain ⟨base, valid⟩ := base
  have signed := @parseInteger_eq base valid text true _ rfl
  have unsigned := @parseInteger_eq base valid text false _ rfl
  by_cases found : (numeral base text).digits = []
  · exact .inl ⟨⟨fun s => s.length_le.1 found⟩, strto_none valid found⟩
  obtain ⟨s, negative, radix, digits, length⟩ := Subject.exists_of_numeral found
  refine .inr ⟨s, fun other => length ▸ other.length_le.2, ?_, ?_⟩
  · rw [strtoll, signed, ← radix, ← digits, ← length, if_neg s.nonempty, Subject.value]
    cases sign : (numeral base text).negative <;> grind
  · rw [strtoull, unsigned, ← radix, ← digits, ← length, if_neg s.nonempty, Subject.value]
    cases sign : (numeral base text).negative <;> grind

/-- The longest numbers in `42` and in `0xff`. -/
theorem strto_exact_samples :
    (∃ s : Subject 10 ['4', '2'], strtoll 10 ['4', '2'] = (s.value, 2, none) ∧ s.value = 42) ∧
      ∃ s : Subject 0 ['0', 'x', 'f', 'f'],
        strtoll 0 ['0', 'x', 'f', 'f'] = (s.value, 4, none) ∧ s.value = 255 := by
  have samples : strtoll 10 ['4', '2'] = (42, 2, none) ∧
      strtoll 0 ['0', 'x', 'f', 'f'] = (255, 4, none) := by decide +kernel
  constructor
  · obtain ⟨-, none, -⟩ | ⟨s, -, read, -⟩ := strto_exact ⟨10, by decide⟩ ['4', '2']
    · cases samples.1.symm.trans none
    have value := (Prod.mk.inj (samples.1.symm.trans read)).1
    have : s.value = 42 := by omega
    exact ⟨s, by rw [samples.1, this], this⟩
  · obtain ⟨-, none, -⟩ | ⟨s, -, read, -⟩ := strto_exact ⟨0, by decide⟩ ['0', 'x', 'f', 'f']
    · cases samples.2.symm.trans none
    have value := (Prod.mk.inj (samples.2.symm.trans read)).1
    have : s.value = 255 := by omega
    exact ⟨s, by rw [samples.2, this], this⟩

/-! ## Wide text -/

theorem parseInteger_stop (text : List Char) {base : Int} (signed : Bool)
    (valid : base = 0 ∨ 2 ≤ base ∧ base ≤ 36) : (parseInteger text base signed).stop =
      if (numeral base text).digits = [] then 0 else (numeral base text).stop := by
  rw [parseInteger_eq valid rfl]
  exact (apply_ite Parsed.stop ..).trans (ite_self _)

theorem strto_append (base : Int) (text more : List Char) :
    ∀ narrow ∈ [strtoll base, strtoull base],
      (narrow text).2.1 ≤ text.length ∧
        ((narrow (text ++ more)).2.1 ≤ text.length → narrow text = narrow (text ++ more)) := by
  simp only [forall_mem_cons, not_mem_nil, false_imp_iff, implies_true, and_true]
  by_cases valid : base = 0 ∨ 2 ≤ base ∧ base ≤ 36
  · have same := Subject.numeral_append base text more
    have short : (numeral base text).stop ≤ text.length := Nat.sub_le ..
    by_cases none : (numeral base (text ++ more)).digits = []
    · rw [if_pos none] at same
      simp [strto_none valid same, strto_none valid none]
    rw [if_neg none] at same
    have ends (signed : Bool) : (parseInteger text base signed).stop ≤ text.length := by
      rw [parseInteger_stop text signed valid]
      split <;> omega
    have agree (signed : Bool)
        (fits : (parseInteger (text ++ more) base signed).stop ≤ text.length) :
        parseInteger text base signed = parseInteger (text ++ more) base signed := by
      rw [parseInteger_stop _ signed valid, if_neg none] at fits
      simp only [parseInteger, same fits]
    exact ⟨⟨ends true, fun fits => by rw [strtoll, agree true fits, strtoll]⟩, ends false,
      fun fits => by rw [strtoull, agree false fits, strtoull]⟩
  · have refused (text : List Char) (signed : Bool) :
        parseInteger text base signed = ⟨0, 0, false, false, some .einval⟩ := if_pos (by omega)
    simp [strtoll, strtoull, refused]

end SrvrOS.Numbers
