import SrvrOS.Lib.Bytes

/-!
# The headers of an archive

`fill_header` of `tar/tar.c` writes each number in octal digits, up to one byte before the end of
its field. The field of the checksum is ended one byte earlier, over the lowest digit.
-/

namespace SrvrOS.Tar

open Lib List

/-- The loop of `write_octal`; `cursor` is one past the source's, which wraps below zero. -/
def writeDigits (out : Bytes) : Nat → Nat → Bytes
  | 0, _ => out
  | cursor + 1, value =>
    if value = 0 then out
    else writeDigits (out.set cursor (.ofNat (48 + value % 8))) cursor (value / 8)

def writeOctal (capacity value : Nat) : Bytes :=
  writeDigits ((replicate capacity 48).set (capacity - 1) 0) (capacity - 1) value

/-- The loop of `read_octal`, in 64-bit arithmetic. -/
def readDigits (value : Nat) : Bytes → Nat
  | [] => value
  | byte :: rest =>
    if byte = 0 ∨ byte = 32 then value
    else if 48 ≤ byte ∧ byte ≤ 55 then readDigits (value * 8 % 2 ^ 64 + (byte.toNat - 48)) rest
    else readDigits value rest

def readOctal (text : Bytes) : Nat := readDigits 0 text

/-- `cli_copy` into a field of zeros. -/
def cliCopy (capacity : Nat) (source : Bytes) : Bytes :=
  ((source.takeWhile (· ≠ 0)).take (capacity - 1)).rightpad capacity 0

/-- `struct tar_header`, with the zeros of `memset`. -/
structure Header where
  (name mode uid gid size mtime checksum : Bytes)
  typeflag : UInt8
  linkname : Bytes := replicate 100 0
  (magic version uname gname : Bytes)
  devmajor : Bytes := replicate 8 0
  devminor : Bytes := replicate 8 0
  namePrefix : Bytes := replicate 155 0
  padding : Bytes := replicate 12 0

def Header.bytes (h : Header) : Bytes :=
  h.name ++ h.mode ++ h.uid ++ h.gid ++ h.size ++ h.mtime ++ h.checksum ++ [h.typeflag] ++
    h.linkname ++ h.magic ++ h.version ++ h.uname ++ h.gname ++ h.devmajor ++ h.devminor ++
    h.namePrefix ++ h.padding

/-- The sum of the bytes, the checksum field counted as blanks. -/
def Header.sum (header : Header) : Nat :=
  ({ header with checksum := replicate 8 32 }.bytes.map UInt8.toNat).sum

/-- The end of `fill_header`. -/
def stamp (header : Header) : Header :=
  { header with checksum := ((writeOctal 8 (header.sum % 2 ^ 32)).set 6 0).set 7 32 }

def fillHeader (name : Bytes) (mode size mtime : Nat) (directory : Bool) : Header :=
  stamp
    { name := cliCopy 100 name
      mode := writeOctal 8 (mode % 0o1000)
      uid := writeOctal 8 0
      gid := writeOctal 8 0
      size := writeOctal 12 (if directory then 0 else size)
      mtime := writeOctal 12 mtime
      checksum := replicate 8 32
      typeflag := if directory then 53 else 48
      magic := [117, 115, 116, 97, 114, 0]
      version := [48, 48]
      uname := cliCopy 32 [114, 111, 111, 116]
      gname := cliCopy 32 [114, 111, 111, 116] }

/-! ## Octal digits -/

/-- The `count` lowest octal digits of a number. -/
def octal : Nat → Nat → Bytes
  | 0, _ => []
  | count + 1, value => octal count (value / 8) ++ [.ofNat (48 + value % 8)]

variable {count v acc : Nat} {rest : Bytes}

@[simp] theorem octal_length : (octal count v).length = count := by
  induction count generalizing v with
  | zero => rfl
  | succ count ih => simp [octal, ih]

theorem octal_zero : octal count 0 = replicate count 48 := by
  induction count with
  | zero => rfl
  | succ count ih => rw [octal, Nat.zero_div, ih, replicate_succ']; rfl

theorem writeDigits_zeros :
    writeDigits (replicate count 48 ++ rest) count v = octal count v ++ rest := by
  induction count generalizing v rest with
  | zero => rfl
  | succ count ih =>
    rw [writeDigits]
    split
    next none => rw [none, octal_zero]
    next =>
      rw [replicate_succ', append_assoc, set_append_right _ _ (by simp), length_replicate,
        Nat.sub_self, octal, append_assoc]
      exact ih

theorem writeOctal_eq : writeOctal (count + 1) v = octal count v ++ [0] := by
  rw [← writeDigits_zeros, writeOctal, replicate_succ']
  simp

theorem readDigits_digit (small : v < 8) :
    readDigits acc (.ofNat (48 + v) :: rest) = readDigits (acc * 8 % 2 ^ 64 + v) rest := by
  interval_cases v <;> rfl

theorem readDigits_digits (fits : (acc + 1) * 8 ^ count ≤ 2 ^ 64) :
    readDigits acc (octal count v ++ rest) =
      readDigits (acc * 8 ^ count + v % 8 ^ count) rest := by
  induction count generalizing v rest with
  | zero => simp [octal, Nat.mod_one]
  | succ count ih =>
    have low : v / 8 % 8 ^ count < 8 ^ count := Nat.mod_lt _ (Nat.pow_pos (by decide))
    rw [Nat.pow_succ'] at fits
    rw [octal, append_assoc, ih (by lia), singleton_append,
      readDigits_digit (Nat.mod_lt _ (by decide)), Nat.mod_eq_of_lt (by lia),
      pow_succ' (n := count), Nat.mod_mul]
    congr 1
    ring

theorem readOctal_digits (fits : v < 8 ^ count) (short : 8 ^ count ≤ 2 ^ 64) :
    readOctal (octal count v ++ 0 :: rest) = v := by
  rw [readOctal, readDigits_digits (by omega), Nat.mod_eq_of_lt fits, readDigits]
  simp

theorem readOctal_writeOctal (fits : v < 8 ^ count) (short : 8 ^ count ≤ 2 ^ 64) :
    readOctal (writeOctal (count + 1) v) = v := by
  rw [writeOctal_eq]
  exact readOctal_digits fits short

/-! ## The header -/

theorem sum_le {bytes : Bytes} : (bytes.map UInt8.toNat).sum ≤ 255 * bytes.length := by
  induction bytes with
  | nil => simp
  | cons byte rest ih =>
    have := byte.toNat_lt
    simp only [map_cons, sum_cons, length_cons]
    omega

@[simp] theorem cliCopy_length {capacity : Nat} {source : Bytes} :
    (cliCopy capacity source).length = capacity := by
  simp only [cliCopy, rightpad, length_append, length_take, length_replicate]
  omega

variable {h : Header} {name : Bytes} {mode size mtime : Nat} {directory : Bool}

theorem stamp_reads (small : (stamp h).sum < 8 ^ 7) :
    readOctal (stamp h).checksum = (stamp h).sum / 8 := by
  have same : (stamp h).sum = h.sum := by rw [Header.sum, Header.sum, stamp]
  have field : (stamp h).checksum = octal 6 (h.sum / 8) ++ [0, 32] := by
    rw [stamp, Nat.mod_eq_of_lt (by omega), writeOctal_eq, octal]
    simp
  rw [field, same]
  exact readOctal_digits (by omega) (by decide)

theorem fillHeader_sum_lt : (fillHeader name mode size mtime directory).sum < 8 ^ 7 := by
  refine lt_of_le_of_lt sum_le ?_
  simp only [fillHeader, stamp, Header.bytes, writeOctal_eq, length_append, cliCopy_length,
    octal_length, length_replicate, length_cons, length_nil]
  decide

/-- Mode, size and time read back as they were stored, and the checksum without its lowest
digit, so that it is wrong in every header. -/
theorem fillHeader_reads (name : Bytes) (mode : Nat) (directory : Bool) (sized : size < 8 ^ 11)
    (timed : mtime < 8 ^ 11) :
    let header := fillHeader name mode size mtime directory
    readOctal header.mode = mode % 0o1000 ∧
      readOctal header.size = (if directory then 0 else size) ∧
      readOctal header.mtime = mtime ∧
      readOctal header.checksum = header.sum / 8 ∧ header.sum / 8 < header.sum := by
  refine ⟨?_, ?_, ?_, ?_, ?_⟩
  · exact readOctal_writeOctal (by omega) (by decide)
  · exact readOctal_writeOctal (by split <;> omega) (by decide)
  · exact readOctal_writeOctal timed (by decide)
  · exact stamp_reads fillHeader_sum_lt
  · refine Nat.div_lt_self ?_ (by decide)
    simp [Header.sum, Header.bytes]

theorem fillHeader_reads_file :
    let header := fillHeader [97] 0o644 5 7 false
    readOctal header.mode = 0o644 ∧ readOctal header.size = 5 ∧ readOctal header.mtime = 7 ∧
      readOctal header.checksum = header.sum / 8 ∧ header.sum / 8 < header.sum :=
  fillHeader_reads [97] 0o644 false (by decide) (by decide)

/-- The checksum of a file `a` without bytes. -/
theorem fillHeader_wrong_checksum :
    let header := fillHeader [97] 0o644 0 0 false
    readOctal header.checksum = 0o770 ∧ header.sum = 0o7706 := by
  decide +kernel

end SrvrOS.Tar
