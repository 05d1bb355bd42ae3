import Mathlib

namespace CoreinitNx.Rpx

abbrev Bytes := List UInt8

-- A Python string of decoded text: its code points.
abbrev Str := List Char

inductive Error where
  | rpxError (message : String)
  | indexError
  | structError
  | zlibError
deriving DecidableEq, Repr

-- `b[start:stop]`
def slice (b : Bytes) (start stop : Nat) : Bytes := (b.drop start).take (stop - start)

-- `b.find(byte, start)`, where `none` is -1.
def find (b : Bytes) (byte : UInt8) (start : Nat) : Option Nat :=
  ((b.drop start).findIdx? (· == byte)).map (start + ·)

-- `b[start:stop]` for what `find` answers; -1 is the place before the last byte.
def sliceUntil (b : Bytes) (start : Nat) (stop : Option Nat) : Bytes :=
  slice b start (stop.getD (b.length - 1))

def bigEndian (b : Bytes) : Nat := b.foldl (fun n byte => 256 * n + byte.toNat) 0

def unpackFields : List Nat → Bytes → List Nat
  | [], _ => []
  | size :: sizes, b => bigEndian (b.take size) :: unpackFields sizes (b.drop size)

-- `struct.unpack` of big-endian fields, by their sizes.
def unpack (sizes : List Nat) (b : Bytes) : Except Error (List Nat) :=
  if b.length = sizes.sum then .ok (unpackFields sizes b) else .error .structError

-- `range(0, stop, step)`
def rangeBy (stop step : Nat) : List Nat := (List.range ((stop + step - 1) / step)).map (· * step)

-- `sorted(set(names))`
def sortedSet (names : List Str) : List Str := names.dedup.insertionSort (· ≤ ·)

-- Where a decoder stands: before a character, or `needed` bytes before the end of one, the next
-- of which has to lie from `low` to `high`.
inductive Utf8State where
  | first
  | more (needed : Nat) (low high : UInt8) (value : Nat)

def replacementCharacter : Char := '\uFFFD'

def utf8First (b : UInt8) : Str × Utf8State :=
  if b < 0x80 then ([Char.ofNat b.toNat], .first)
  else if 0xC2 ≤ b ∧ b ≤ 0xDF then ([], .more 1 0x80 0xBF (b.toNat - 0xC0))
  else if b = 0xE0 then ([], .more 2 0xA0 0xBF 0)
  else if b = 0xED then ([], .more 2 0x80 0x9F 0xD)
  else if 0xE1 ≤ b ∧ b ≤ 0xEF then ([], .more 2 0x80 0xBF (b.toNat - 0xE0))
  else if b = 0xF0 then ([], .more 3 0x90 0xBF 0)
  else if 0xF1 ≤ b ∧ b ≤ 0xF3 then ([], .more 3 0x80 0xBF (b.toNat - 0xF0))
  else if b = 0xF4 then ([], .more 3 0x80 0x8F 4)
  else ([replacementCharacter], .first)

def utf8Step : Utf8State → UInt8 → Str × Utf8State
  | .first, b => utf8First b
  | .more needed low high value, b =>
    if low ≤ b ∧ b ≤ high then
      let value := value * 64 + (b.toNat - 0x80)
      if needed = 1 then ([Char.ofNat value], .first)
      else ([], .more (needed - 1) 0x80 0xBF value)
    else (replacementCharacter :: (utf8First b).1, (utf8First b).2)

def decodeFrom : Utf8State → Bytes → Str
  | .first, [] => []
  | .more _ _ _ _, [] => [replacementCharacter]
  | state, b :: bytes => (utf8Step state b).1 ++ decodeFrom (utf8Step state b).2 bytes

-- `b.decode("utf-8", "replace")`: a sequence broken off becomes one replacement character.
def decode (b : Bytes) : Str := decodeFrom .first b

example : decode [0x41, 0xE2, 0x82, 0xAC, 0xE2, 0x82, 0x42, 0xC0] =
    ['A', '€', replacementCharacter, 'B', replacementCharacter] := by decide

variable {b : Bytes} {byte : UInt8} {start : Nat} {names : List Str} {name : Str}

theorem unpack_ok {sizes : List Nat} (h : b.length = sizes.sum) :
    unpack sizes b = .ok (unpackFields sizes b) := if_pos h

theorem length_slice {stop : Nat} (h : stop ≤ b.length) (hle : start ≤ stop) :
    (slice b start stop).length = stop - start := by
  rw [slice, List.length_take, List.length_drop]
  omega

-- Where a byte of that value is left, or nothing is, a find stops before the next one.
theorem sliceUntil_find (hlast : ∀ last ∈ b.getLast?, last = byte) :
    sliceUntil b start (find b byte start) = (b.drop start).takeWhile (· != byte) := by
  rw [sliceUntil, find, slice]
  cases hfind : (b.drop start).findIdx? (· == byte) with
  | some i =>
    obtain ⟨hlt, hi⟩ := List.findIdx?_eq_some_iff_findIdx_eq.1 hfind
    rw [List.takeWhile_eq_take_findIdx_not, Option.map_some, Option.getD_some,
      Nat.add_sub_cancel_left, ← hi]
    simp only [bne, Bool.not_not]
  | none =>
    have hempty : b.drop start = [] := by
      by_contra hne
      have hend : (b.drop start).getLast hne ∈ b.getLast? := by
        rw [List.getLast_drop]
        exact List.getLast?_eq_some_getLast _
      have habsent := List.findIdx?_eq_none_iff.1 hfind _ (List.getLast_mem hne)
      rw [hlast _ hend, beq_self_eq_true] at habsent
      cases habsent
    rw [hempty, List.take_nil, List.takeWhile_nil]

theorem mem_sortedSet : name ∈ sortedSet names ↔ name ∈ names := by
  rw [sortedSet, (List.perm_insertionSort _ _).mem_iff, List.mem_dedup]

theorem pairwise_sortedSet (names : List Str) : (sortedSet names).Pairwise (· < ·) := by
  have hsorted := List.pairwise_insertionSort (· ≤ ·) names.dedup
  have hdistinct := ((List.perm_insertionSort (· ≤ ·) names.dedup).nodup_iff).2 names.nodup_dedup
  exact (hsorted.and hdistinct).imp fun hle => lt_of_le_of_ne hle.1 hle.2

end CoreinitNx.Rpx
