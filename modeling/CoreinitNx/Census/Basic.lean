import CoreinitNx.Census.Python
import CoreinitNx.Rpx.Basic
import Mathlib.Data.Prod.Lex
import Mathlib.Algebra.Order.Field.Rat

namespace CoreinitNx.Census

open Rpx

inductive DirEntry where
  | file (name : Str)
  | directory (name : Str) (entries : List DirEntry)

namespace DirEntry

def name : DirEntry → Str
  | .file name => name
  | .directory name _ => name

def fileName? : DirEntry → Option Str
  | .file name => some name
  | .directory _ _ => none

mutual

-- `os.walk`: each directory with the names of its files.
def walk (path : Str) : DirEntry → List (Str × List Str)
  | .file _ => []
  | .directory name entries =>
    (join path name, entries.filterMap fileName?) :: walkAll (join path name) entries

def walkAll (path : Str) : List DirEntry → List (Str × List Str)
  | [] => []
  | entry :: entries => entry.walk path ++ walkAll path entries

end

end DirEntry

-- What a file system lets a directory hold.
inductive Listing : List DirEntry → Prop where
  | mk {entries : List DirEntry}
      (distinct : (entries.map DirEntry.name).Nodup)
      (names : ∀ entry ∈ entries, entry.name ≠ [] ∧ '/' ∉ entry.name)
      (below : ∀ name inner, DirEntry.directory name inner ∈ entries → Listing inner) :
      Listing entries

structure Directory where
  entries : List DirEntry
  listing : Listing entries

inductive Corpus where
  | file
  | directory (dir : Directory)

def rpxSuffix : Str := ['.', 'r', 'p', 'x']

def isModule (name : Str) : Bool :=
  rpxSuffix.isSuffixOf (lower name) || rplSuffix.isSuffixOf (lower name)

def modulesIn (walked : List (Str × List Str)) : List Str :=
  walked.flatMap fun p => (p.2.filter isModule).map (join p.1)

def walk (root : Str) (dir : Directory) : List (Str × List Str) :=
  (root, dir.entries.filterMap DirEntry.fileName?) :: DirEntry.walkAll root dir.entries

def findRpx (root : Str) : Corpus → List Str
  | .file => [root]
  | .directory dir => sorted (modulesIn (walk root dir))

def addTitle (root : Str) (titles : Dict Str (List Str)) (entry : DirEntry) :
    Dict Str (List Str) :=
  match entry with
  | .directory name _ =>
    let files := modulesIn (entry.walk root)
    if files ≠ [] then titles.set name (sorted files) else titles
  | .file name =>
    if isModule name then titles.set (splitext name).1 [join root name] else titles

-- `sorted(os.listdir(root))`
def Directory.listdir (dir : Directory) : List DirEntry :=
  dir.entries.insertionSort (·.name ≤ ·.name)

def groupTitles (root : Str) : Corpus → Dict Str (List Str)
  | .file => Dict.empty.set (splitext (basename root)).1 [root]
  | .directory dir => dir.listdir.foldl (addTitle root) .empty

inductive MetaXml where
  | missing
  | broken
  | parsed (longnameEn titleId : Option Str)

structure CsvRow where
  filename : Option Str
  name : Option Str

-- What the tool reads: the `meta.xml` at a path, the rows of the metadata, the lines of the list of
-- what is implemented, and `rpx.load(path).imports()` or the text of its exception.
structure Sources where
  metaXml : Str → MetaXml
  metadata : List CsvRow
  implemented : List Str
  imports : Str → Except Str (Dict Str Entry)

structure Symbol where
  library : Str
  name : Str
  kind : Kind
deriving DecidableEq, Repr

structure Collected where
  users : Dict Symbol (List Str)
  perTitle : List (Str × Symbol)
  failures : List (Str × Str)

structure Row where
  library : Str
  symbol : Str
  kind : Kind
  titles : Nat
  pctOfCorpus : ℚ
  implemented : Bool
deriving DecidableEq

structure Report where
  importsByTitle : List (Str × Symbol)
  frequency : List Row
  titles : Nat
  failures : List (Str × Str)

def metaXmlName : Str := ['m', 'e', 't', 'a', '.', 'x', 'm', 'l']

def text (s : Option Str) : Str := strip (s.getD [])

def readMetaXml (order : SetOrder) (metaXml : Str → MetaXml) (paths : List Str) :
    Option Str × Option Str :=
  let dirs := (paths.map dirname).dedup
  let dirs := (dirs ++ (order.iterate dirs).map dirname).dedup
  let found := (order.iterate dirs).findSome? fun d =>
    match metaXml (join d metaXmlName) with
    | .missing => none
    | .broken => none
    | .parsed longnameEn titleId =>
      let name := (text longnameEn).map fun c => if c = '\n' then ' ' else c
      some (orNone name, orNone (text titleId))
  found.getD (none, none)

def addRow (rows : Dict Str CsvRow) (row : CsvRow) : Dict Str CsvRow :=
  let key := text row.filename
  if key ≠ [] then rows.set key row else rows

def loadMetadata (rows : List CsvRow) : Dict Str CsvRow := rows.foldl addRow .empty

def loadImplemented (lines : List Str) : List Str :=
  (lines.map fun line => strip (line.takeWhile (· ≠ '#'))).filter (· ≠ [])

def displayName (order : SetOrder) (src : Sources) (title : Str) (paths : List Str) : Str :=
  let name := (readMetaXml order src.metaXml paths).1
  let row := (loadMetadata src.metadata).get? title
  (name.or (orNone (row.bind CsvRow.name))).getD title

def importedSymbols (imports : Dict Str Entry) : List Symbol :=
  imports.entries.flatMap fun p =>
    [Kind.functions, .data].flatMap fun kind => (p.2.names kind).map fun sym => ⟨p.1, sym, kind⟩

def addModule (src : Sources) (read : List Symbol × List (Str × Str)) (path : Str) :
    List Symbol × List (Str × Str) :=
  match src.imports path with
  | .error exc => (read.1, read.2 ++ [(basename path, exc)])
  | .ok imports =>
    ((importedSymbols imports).foldl (fun symbols key => symbols.insert key) read.1, read.2)

def addUser (display : Str) (c : Collected) (key : Symbol) : Collected :=
  { c with
    users := (c.users.setDefault key []).adjust key fun who => who.insert display
    perTitle := c.perTitle ++ [(display, key)] }

def collectTitle (order : SetOrder) (src : Sources) (c : Collected) (title : Str × List Str) :
    Collected :=
  let display := displayName order src title.1 title.2
  let read := title.2.foldl (addModule src) ([], c.failures)
  (order.iterate read.1).foldl (addUser display) { c with failures := read.2 }

def collect (order : SetOrder) (src : Sources) (titles : List (Str × List Str)) : Collected :=
  titles.foldl (collectTitle order src) ⟨.empty, [], []⟩

def kindName : Kind → Str
  | .functions => ['f', 'u', 'n', 'c', 't', 'i', 'o', 'n', 's']
  | .data => ['d', 'a', 't', 'a']

def useKey (use : Str × Symbol) : Str ×ₗ Str ×ₗ Str ×ₗ Str :=
  toLex (use.1, toLex (use.2.library, toLex (use.2.name, kindName use.2.kind)))

def rowKey (row : Row) : Int ×ₗ Str ×ₗ Str :=
  toLex (-(row.titles : Int), toLex (row.library, row.symbol))

-- A percentage as it is before it is rounded to one decimal for the file.
def rowOf (implemented : List Str) (n : Nat) (user : Symbol × List Str) : Row where
  library := user.1.library
  symbol := user.1.name
  kind := user.1.kind
  titles := user.2.length
  pctOfCorpus := 100 * user.2.length / n
  implemented := user.1.name ∈ implemented

def report (implemented : List Str) (c : Collected) : Except String Report :=
  let titles := sortedSet (c.perTitle.map Prod.fst)
  let n := titles.length
  if n = 0 then throw "no titles parsed successfully"
  else
    pure {
      importsByTitle := c.perTitle.insertionSort (useKey · ≤ useKey ·)
      frequency := (c.users.entries.map (rowOf implemented n)).insertionSort (rowKey · ≤ rowKey ·)
      titles := n
      failures := c.failures }

def census (order : SetOrder) (src : Sources) (titlesMap : Dict Str (List Str)) :
    Except String Report :=
  report (loadImplemented src.implemented) (collect order src titlesMap.entries)

def main (order : SetOrder) (src : Sources) (root : Str) (corpus : Corpus) :
    Except String Report :=
  let titlesMap := groupTitles root corpus
  if titlesMap.isEmpty then throw ("no .rpx/.rpl found under " ++ String.ofList root)
  else census order src titlesMap

end CoreinitNx.Census
