import CoreinitNx.Rpx.Python
import Mathlib.Data.List.DropRight

namespace CoreinitNx.Census

open Rpx

-- A set is a list of what it holds, and nothing is known of the order in which it is iterated.
structure SetOrder where
  iterate : ∀ {α : Type}, List α → List α
  perm : ∀ {α : Type} (xs : List α), (iterate xs).Perm xs

def SetOrder.asBuilt : SetOrder := ⟨fun xs => xs, fun xs => .refl xs⟩

def sorted (names : List Str) : List Str := names.insertionSort (· ≤ ·)

-- No character beyond ASCII has a letter that is looked for as its lower case.
def lower (s : Str) : Str := s.map Char.toLower

def isSpace (c : Char) : Bool :=
  let n := c.toNat
  (9 ≤ n && n ≤ 13) || (28 ≤ n && n ≤ 32) || n == 0x85 || n == 0xA0 || n == 0x1680 ||
    (0x2000 ≤ n && n ≤ 0x200A) || n == 0x2028 || n == 0x2029 || n == 0x202F || n == 0x205F ||
    n == 0x3000

def strip (s : Str) : Str := (s.dropWhile isSpace).rdropWhile isSpace

-- `s or None`
def orNone (s : Option Str) : Option Str := s.filter (· ≠ [])

def basename (path : Str) : Str := path.rtakeWhile (· ≠ '/')

def dirname (path : Str) : Str :=
  let head := path.rdropWhile (· ≠ '/')
  if head.all (· = '/') then head else head.rdropWhile (· = '/')

-- Dots that a name starts with do not start its extension.
def splitext (path : Str) : Str × Str :=
  let root := (path.rdropWhile (· ≠ '.')).dropLast
  let ext := path.drop root.length
  if '/' ∈ ext ∨ (basename root).all (· = '.') then (path, []) else (root, ext)

def join (path name : Str) : Str :=
  if name.head? = some '/' ∨ path = [] then name
  else if path.getLast? = some '/' then path ++ name
  else path ++ '/' :: name

end CoreinitNx.Census
