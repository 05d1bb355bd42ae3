import CoreinitNx.Rpx.Imports

namespace CoreinitNx.Rpx

def shtRplExports : Nat := 0x80000001

def shtRplCrcs : Nat := 0x80000003

def shtRplFileinfo : Nat := 0x80000004

def shtNames : List (Nat × String) :=
  [(0, "NULL"), (1, "PROGBITS"), (2, "SYMTAB"), (3, "STRTAB"), (4, "RELA"), (8, "NOBITS"),
    (shtRplExports, "RPL_EXPORTS"), (shtRplImports, "RPL_IMPORTS"), (shtRplCrcs, "RPL_CRCS"),
    (shtRplFileinfo, "RPL_FILEINFO")]

-- `f"0x{n:08x}"`
def hex08 (n : Nat) : String :=
  let digits := Nat.toDigits 16 n
  "0x" ++ String.ofList (List.replicate (8 - digits.length) '0' ++ digits)

-- `SystemExit` with its text, or what a call raises.
inductive Halt where
  | exit (text : String)
  | raised (error : Error)
deriving DecidableEq, Repr

def raising {α : Type} (x : Except Error α) : Except Halt α := x.mapError .raised

structure SectionLine where
  idx : Nat
  name : Str
  type : String
  size : Nat
  zlib : Bool
  flags : String
deriving DecidableEq, Repr

structure ImportLine where
  name : Str
  lib : Str
  kind : String
  size : Nat
deriving DecidableEq, Repr

structure Dump where
  type : Nat
  machine : Nat
  shnum : Nat
  shstrndx : Nat
  mismatch : Option (Nat × Nat)
  sections : List SectionLine
  imports : List ImportLine
deriving DecidableEq, Repr

def importText : Str := ['i', 'm', 'p', 'o', 'r', 't', '_']

-- What follows the first `sep` in a text: `text.split(sep, 1)[1]`, where it is there.
def splitFirst (sep : Str) : Str → Option Str
  | [] => if sep = [] then some [] else none
  | c :: rest =>
    if sep.isPrefixOf (c :: rest) then some ((c :: rest).drop sep.length) else splitFirst sep rest

def importKind (name : Str) : String :=
  if fimport.isPrefixOf name then "functions"
  else if dimport.isPrefixOf name then "data"
  else "?"

-- `name_of`, with the table that it closes over.
def nameOf (shstr : Bytes) (sh : Section) : Str := stringAt shstr sh.nameOff

def sectionLine (shstr : Bytes) (sh : Section) : SectionLine :=
  ⟨sh.idx, nameOf shstr sh, (shtNames.lookup sh.type).getD (hex08 sh.type), sh.size,
    sh.flags &&& shfRplZlib ≠ 0, hex08 sh.flags⟩

def importLine (shstr : Bytes) (sh : Section) : ImportLine :=
  let n := nameOf shstr sh
  ⟨n, (splitFirst importText n).getD n, importKind n, sh.size⟩

-- The bytes, and the two sizes of which it complains if they differ.
def sectionData (decompress : Bytes → Option Bytes) (blob : Bytes) (sh : Section) :
    Except Error (Bytes × Option (Nat × Nat)) :=
  let raw := slice blob sh.offset (sh.offset + sh.size)
  if sh.flags &&& shfRplZlib = 0 then .ok (raw, none)
  else if raw.length < 4 then .ok ([], none)
  else
    let expected := bigEndian (raw.take 4)
    match decompress (raw.drop 4) with
    | some out => .ok (out, if out.length ≠ expected then some (expected, out.length) else none)
    | none => .error .zlibError

def dumpSections (decompress : Bytes → Option Bytes) (blob : Bytes) : Except Halt Dump := do
  if slice blob 0 4 ≠ elfMagic then
    throw (.exit "not an ELF file")
  let eiClass ← raising (getItem blob 4)
  let eiData ← raising (getItem blob 5)
  if eiClass ≠ 1 ∨ eiData ≠ 2 then
    throw (.exit "expected 32-bit big-endian")
  match ← raising (unpack [2, 2, 4, 4, 4, 4, 4, 2, 2, 2, 2, 2, 2] (slice blob 16 52)) with
  | [type, machine, _, _, _, shoff, _, _, _, _, shentsize, shnum, shstrndx] =>
    let sections ← raising ((List.range shnum).mapM (readSection blob shoff shentsize))
    let names ← raising (getItem sections shstrndx)
    let (shstr, mismatch) ← raising (sectionData decompress blob names)
    let found := sections.filter fun sh => sh.type = shtRplImports
    pure ⟨type, machine, shnum, shstrndx, mismatch, sections.map (sectionLine shstr),
      found.map (importLine shstr)⟩
  | _ => throw (.raised .structError)

variable {decompress : Bytes → Option Bytes} {blob : Bytes} {r : Reader} {d : Dump} {sh : Section}

theorem bind_eq_ok {α β ε : Type} {x : Except ε α} {f : α → Except ε β} {b : β} :
    (x >>= f) = .ok b ↔ ∃ a, x = .ok a ∧ f a = .ok b := by
  cases x with
  | error e => exact ⟨nofun, fun ⟨_, h, _⟩ => nomatch h⟩
  | ok a => exact ⟨fun h => ⟨a, rfl, h⟩, fun ⟨_, ha, h⟩ => (Except.ok.inj ha) ▸ h⟩

theorem raising_eq_ok {α : Type} {x : Except Error α} {a : α} :
    raising x = .ok a ↔ x = .ok a := by
  cases x with
  | error e => exact ⟨nofun, nofun⟩
  | ok b =>
    exact ⟨fun h => congrArg _ (Except.ok.inj h), fun h => congrArg _ (Except.ok.inj h)⟩

theorem sectionData_fst : (sectionData decompress blob sh).map Prod.fst = data decompress blob sh := by
  rw [sectionData, data]
  dsimp only
  split
  next => rfl
  next =>
    split
    next => rfl
    next => cases decompress ((slice blob sh.offset (sh.offset + sh.size)).drop 4) <;> rfl

-- What both tools read before either looks at the machine.
structure Parsed (decompress : Bytes → Option Bytes) (blob : Bytes) (r : Reader) : Prop where
  magic : slice blob 0 4 = elfMagic
  bits32 : getItem blob 4 = .ok 1
  bigEndian : getItem blob 5 = .ok 2
  header : 52 ≤ blob.length
  blob_eq : r.blob = blob
  sections : (List.range (shnum blob)).mapM (readSection blob (shoff blob) (shentsize blob)) =
    .ok r.sections
  names : ∃ sh, getItem r.sections (shstrndx blob) = .ok sh ∧
    data decompress blob sh = .ok r.shstr

theorem header_unpack (h : 52 ≤ blob.length) :
    unpack [2, 2, 4, 4, 4, 4, 4, 2, 2, 2, 2, 2, 2] (slice blob 16 52) =
      .ok (fieldsAt [2, 2, 4, 4, 4, 4, 4, 2, 2, 2, 2, 2, 2] blob 16) := unpack_slice h

theorem length_of_unpack {sizes fields : List Nat} {start stop : Nat}
    (h : unpack sizes (slice blob start stop) = .ok fields) (hsum : start + sizes.sum = stop)
    (hpos : 0 < sizes.sum) : stop ≤ blob.length := by
  rw [unpack] at h
  split at h
  next hlength =>
    rw [slice, List.length_take, List.length_drop] at hlength
    omega
  next => cases h

theorem readSections_eq (h : 52 ≤ blob.length) : readSections decompress blob =
    ((List.range (shnum blob)).mapM (readSection blob (shoff blob) (shentsize blob)) >>=
      fun sections => getItem sections (shstrndx blob) >>= fun sh => data decompress blob sh >>=
        fun shstr => Except.ok (Reader.mk blob sections shstr)) := by
  rw [readSections, header_unpack h]
  rfl

theorem checkHeader_ok (h : checkHeader blob = .ok ()) :
    slice blob 0 4 = elfMagic ∧ getItem blob 4 = .ok 1 ∧ getItem blob 5 = .ok 2 ∧
      unpack [2] (slice blob 18 20) = .ok [20] := by
  rw [checkHeader] at h
  split at h
  next => cases h
  next hmagic =>
    obtain ⟨eiClass, hclass, h⟩ := bind_eq_ok.1 h
    split at h
    next => cases h
    next hbits =>
      obtain ⟨eiData, hdata, h⟩ := bind_eq_ok.1 h
      split at h
      next => cases h
      next hendian =>
        obtain ⟨fields, hfields, h⟩ := bind_eq_ok.1 h
        split at h
        next machine =>
          split at h
          next => cases h
          next hmachine =>
            rw [not_not] at hmagic hbits hendian hmachine
            subst hbits hendian hmachine
            exact ⟨hmagic, hclass, hdata, hfields⟩
        next => cases h

theorem checkHeader_of (hmagic : slice blob 0 4 = elfMagic) (hbits : getItem blob 4 = .ok 1)
    (hendian : getItem blob 5 = .ok 2) (hmachine : unpack [2] (slice blob 18 20) = .ok [20]) :
    checkHeader blob = .ok () := by
  rw [checkHeader, if_neg (not_not.2 hmagic), hbits, hendian, hmachine]
  rfl

theorem machine_unpack (h : 52 ≤ blob.length) :
    unpack [2] (slice blob 18 20) = .ok [fieldAt blob 18 2] :=
  unpack_slice (Nat.le_trans (by decide) h)

theorem read_eq_ok :
    read decompress blob = .ok r ↔ Parsed decompress blob r ∧ fieldAt blob 18 2 = 20 := by
  constructor
  · intro h
    obtain ⟨⟨⟩, hheader, h⟩ := bind_eq_ok.1 h
    obtain ⟨hmagic, hbits, hendian, hmachine⟩ := checkHeader_ok hheader
    obtain ⟨fields, hfields, -⟩ := bind_eq_ok.1 h
    have hlength : 52 ≤ blob.length := length_of_unpack hfields rfl (by decide)
    rw [machine_unpack hlength] at hmachine
    rw [readSections_eq hlength] at h
    obtain ⟨sections, hsections, h⟩ := bind_eq_ok.1 h
    obtain ⟨names, hnames, h⟩ := bind_eq_ok.1 h
    obtain ⟨shstr, hshstr, h⟩ := bind_eq_ok.1 h
    obtain rfl := Except.ok.inj h
    exact ⟨⟨hmagic, hbits, hendian, hlength, rfl, hsections, names, hnames, hshstr⟩,
      (List.cons.inj (Except.ok.inj hmachine)).1⟩
  · rintro ⟨⟨hmagic, hbits, hendian, hlength, hblob, hsections, names, hnames, hshstr⟩, hmachine⟩
    have hunpack := machine_unpack hlength
    rw [hmachine] at hunpack
    rw [read, checkHeader_of hmagic hbits hendian hunpack, ok_bind, readSections_eq hlength,
      hsections, ok_bind, hnames, ok_bind, hshstr, ok_bind, ← hblob]

-- What is printed of what was read.
def report (r : Reader) (mismatch : Option (Nat × Nat)) : Dump where
  type := fieldAt r.blob 16 2
  machine := fieldAt r.blob 18 2
  shnum := shnum r.blob
  shstrndx := shstrndx r.blob
  mismatch := mismatch
  sections := r.sections.map (sectionLine r.shstr)
  imports := (r.sections.filter fun sh => sh.type = shtRplImports).map (importLine r.shstr)

theorem dumpSections_header (hmagic : slice blob 0 4 = elfMagic) (hbits : getItem blob 4 = .ok 1)
    (hendian : getItem blob 5 = .ok 2) (hlength : 52 ≤ blob.length) :
    dumpSections decompress blob =
      (raising ((List.range (shnum blob)).mapM
          (readSection blob (shoff blob) (shentsize blob))) >>= fun sections =>
        raising (getItem sections (shstrndx blob)) >>= fun names =>
          raising (sectionData decompress blob names) >>= fun p =>
            Except.ok (report ⟨blob, sections, p.1⟩ p.2)) := by
  rw [dumpSections, if_neg (not_not.2 hmagic), hbits, hendian, header_unpack hlength]
  rfl

theorem sectionData_ok {bytes : Bytes} : data decompress blob sh = .ok bytes ↔
    ∃ mismatch, sectionData decompress blob sh = .ok (bytes, mismatch) := by
  rw [← sectionData_fst]
  cases sectionData decompress blob sh with
  | error e => exact ⟨nofun, fun ⟨_, h⟩ => nomatch h⟩
  | ok p =>
    constructor
    · intro h
      obtain rfl := Except.ok.inj h
      exact ⟨p.2, rfl⟩
    · rintro ⟨mismatch, h⟩
      obtain rfl := Except.ok.inj h
      rfl

theorem dumpSections_eq_ok : dumpSections decompress blob = .ok d ↔
    ∃ r mismatch, Parsed decompress blob r ∧
      (∃ names, getItem r.sections (shstrndx blob) = .ok names ∧
        sectionData decompress blob names = .ok (r.shstr, mismatch)) ∧ d = report r mismatch := by
  constructor
  · intro h
    have hall := h
    rw [dumpSections] at h
    split at h
    next => cases h
    next hmagic =>
      obtain ⟨eiClass, hclass, hrest⟩ := bind_eq_ok.1 h
      obtain ⟨eiData, hdata, hrest'⟩ := bind_eq_ok.1 hrest
      dsimp only at hrest'
      split at hrest'
      next => cases hrest'
      next hkind =>
        rw [not_or, not_not, not_not] at hkind
        obtain ⟨rfl, rfl⟩ := hkind
        obtain ⟨fields, hfields, -⟩ := bind_eq_ok.1 hrest'
        have hlength : 52 ≤ blob.length :=
          length_of_unpack (raising_eq_ok.1 hfields) rfl (by decide)
        rw [dumpSections_header (not_not.1 hmagic) (raising_eq_ok.1 hclass)
          (raising_eq_ok.1 hdata) hlength] at hall
        obtain ⟨sections, hsections, hall⟩ := bind_eq_ok.1 hall
        obtain ⟨names, hnames, hall⟩ := bind_eq_ok.1 hall
        obtain ⟨⟨shstr, mismatch⟩, hshstr, hall⟩ := bind_eq_ok.1 hall
        rw [raising_eq_ok] at hsections hnames hshstr
        exact ⟨⟨blob, sections, shstr⟩, mismatch,
          ⟨not_not.1 hmagic, raising_eq_ok.1 hclass, raising_eq_ok.1 hdata, hlength, rfl, hsections,
            names, hnames, sectionData_ok.2 ⟨mismatch, hshstr⟩⟩,
          ⟨names, hnames, hshstr⟩, (Except.ok.inj hall).symm⟩
  · rintro ⟨r, mismatch, hparsed, ⟨names, hnames, hshstr⟩, rfl⟩
    rw [dumpSections_header hparsed.magic hparsed.bits32 hparsed.bigEndian hparsed.header,
      hparsed.sections]
    change (raising (getItem r.sections (shstrndx blob)) >>= _) = _
    rw [hnames]
    change (raising (sectionData decompress blob names) >>= _) = _
    rw [hshstr, ← hparsed.blob_eq]
    rfl

def Kind.text : Kind → String
  | .functions => "functions"
  | .data => "data"

-- The library that the reader makes of a line of the dump.
def ImportLine.Of (line : ImportLine) (lib : Str) (kind : Kind) : Prop :=
  line.kind = kind.text ∧ stripRpl line.lib = lib

theorem splitFirst_fimport (rest : Str) : splitFirst importText (fimport ++ rest) = some rest := rfl

theorem splitFirst_dimport (rest : Str) : splitFirst importText (dimport ++ rest) = some rest := rfl

theorem importLine_of_iff {shstr : Bytes} {lib : Str} {kind : Kind} :
    (importLine shstr sh).Of lib kind ↔ libraryOf (nameOf shstr sh) = some (lib, kind) := by
  rw [ImportLine.Of, importLine, libraryOf, importKind]
  generalize nameOf shstr sh = name
  dsimp only
  split
  next hprefix =>
    obtain ⟨rest, rfl⟩ := List.isPrefixOf_iff_prefix.1 hprefix
    rw [splitFirst_fimport, Option.getD_some, List.drop_left, Option.some_inj, Prod.mk.injEq]
    cases kind <;> simp [Kind.text]
  next =>
    split
    next hprefix =>
      obtain ⟨rest, rfl⟩ := List.isPrefixOf_iff_prefix.1 hprefix
      rw [splitFirst_dimport, Option.getD_some, List.drop_left, Option.some_inj, Prod.mk.injEq]
      cases kind <;> simp [Kind.text]
    next => cases kind <;> simp [Kind.text]

theorem foldlM_keeps {α β ε : Type} {f : β → α → Except ε β} {I : β → Prop} {xs : List α}
    {b b' : β} (hstep : ∀ a ∈ xs, ∀ b b', I b → f b a = .ok b' → I b') (hb : I b)
    (h : xs.foldlM f b = .ok b') : I b' := by
  induction xs generalizing b with
  | nil =>
    obtain rfl := Except.ok.inj h
    exact hb
  | cons x xs ih =>
    rw [List.foldlM_cons] at h
    obtain ⟨c, hc, h⟩ := bind_eq_ok.1 h
    exact ih (fun a ha => hstep a (List.mem_cons_of_mem x ha))
      (hstep x List.mem_cons_self b c hb hc) h

-- Something is listed only of libraries that an import section names.
def Named (r : Reader) (result : Dict Str Entry) : Prop :=
  ∀ lib entry, result.get? lib = some entry → ∀ kind, entry.names kind ≠ [] →
    ∃ idx, r.kinds.get? idx = some (lib, kind)

theorem Named.collect {result : Dict Str Entry} {idx : Nat} {lib sym : Str} {kind : Kind}
    (hn : Named r result) (hkind : r.kinds.get? idx = some (lib, kind)) :
    Named r (Rpx.collect result (lib, kind, sym)) := by
  intro lib' entry hentry kind' hne
  rw [get?_collect] at hentry
  split at hentry
  next heq =>
    obtain rfl : lib' = lib := heq
    obtain rfl := Option.some.inj hentry
    obtain ⟨name, hname⟩ := List.exists_mem_of_ne_nil _ hne
    rcases mem_names_append.1 hname with hold | ⟨rfl, -⟩
    · cases hget : result.get? lib' with
      | some old =>
        rw [hget] at hold
        exact hn lib' old hget kind' (List.ne_nil_of_mem hold)
      | none =>
        rw [hget] at hold
        cases kind' <;> cases hold
    · exact ⟨idx, hkind⟩
  next => exact hn lib' entry hentry kind' hne

theorem addSymbol_named {refs : Option (List (Nat × Nat))} {symtab strtab : Bytes}
    {result result' : Dict Str Entry} {i : Nat} (hn : Named r result)
    (h : addSymbol r.kinds refs sh symtab strtab result i = .ok result') : Named r result' := by
  rw [addSymbol] at h
  obtain ⟨fields, -, h⟩ := bind_eq_ok.1 h
  split at h
  next name _ _ info _ shndx =>
    split at h
    next => exact Except.ok.inj h ▸ hn
    next lib kind hkind =>
      split at h
      next => exact Except.ok.inj h ▸ hn
      next =>
        split at h
        next => exact Except.ok.inj h ▸ hn
        next =>
          dsimp only at h
          split at h
          next => exact Except.ok.inj h ▸ hn
          next =>
            exact Except.ok.inj h ▸ hn.collect hkind
  next => cases h

theorem collected_named {refs : Option (List (Nat × Nat))} {all : Dict Str Entry}
    (h : r.sections.foldlM (r.addSymbols decompress r.kinds refs) .empty = .ok all) :
    Named r (all.mapEntries fun _ entry => entry.sorted) := by
  have hempty : Named r .empty := fun _ _ hentry => nomatch hentry
  have hn : Named r all := by
    refine foldlM_keeps (fun sh _ b b' hb hadd => ?_) hempty h
    rw [Reader.addSymbols] at hadd
    split at hadd
    next => exact Except.ok.inj hadd ▸ hb
    next =>
      obtain ⟨symtab, -, hadd⟩ := bind_eq_ok.1 hadd
      obtain ⟨link, -, hadd⟩ := bind_eq_ok.1 hadd
      obtain ⟨strtab, -, hadd⟩ := bind_eq_ok.1 hadd
      exact foldlM_keeps (fun _ _ _ _ => addSymbol_named) hb hadd
  intro lib entry hentry kind hne
  rw [Dict.get?_mapEntries] at hentry
  obtain ⟨old, hold, rfl⟩ := Option.map_eq_some_iff.1 hentry
  refine hn lib old hold kind fun hnil => hne ?_
  cases kind <;> exact congrArg sortedSet hnil

theorem imports_named {referencedOnly : Bool} {result : Dict Str Entry}
    (h : r.imports decompress referencedOnly = .ok result) : Named r result := by
  rw [Reader.imports] at h
  split at h
  next =>
    obtain rfl := Except.ok.inj h
    rintro _ _ ⟨⟩
  next =>
    dsimp only at h
    split at h
    next =>
      obtain ⟨refs, -, hrest⟩ := bind_eq_ok.1 h
      obtain ⟨all, hall, hsorted⟩ := bind_eq_ok.1 hrest
      exact Except.ok.inj hsorted ▸ collected_named hall
    next =>
      obtain ⟨refs, -, hrest⟩ := bind_eq_ok.1 h
      obtain ⟨all, hall, hsorted⟩ := bind_eq_ok.1 hrest
      exact Except.ok.inj hsorted ▸ collected_named hall

theorem kinds_of_section {idx : Nat} {lib : Str} {kind : Kind}
    (h : r.kinds.get? idx = some (lib, kind)) :
    ∃ sh ∈ r.sections, r.importOf sh = some (lib, kind) := by
  rw [Reader.kinds] at h
  generalize r.sections = sections at h ⊢
  induction sections using List.reverseRecOn with
  | nil => cases h
  | append_singleton sections sh ih =>
    rw [List.foldl_append, List.foldl_cons, List.foldl_nil, get?_addKind] at h
    split at h
    next =>
      cases himport : r.importOf sh with
      | some library =>
        rw [himport] at h
        exact ⟨sh, List.mem_append_right _ (List.mem_singleton_self sh), himport.trans h⟩
      | none =>
        rw [himport] at h
        obtain ⟨sh', hmem, hsh'⟩ := ih h
        exact ⟨sh', List.mem_append_left _ hmem, hsh'⟩
    next =>
      obtain ⟨sh', hmem, hsh'⟩ := ih h
      exact ⟨sh', List.mem_append_left _ hmem, hsh'⟩

-- The dump and the reader see one image.
structure Dump.Agrees (decompress : Bytes → Option Bytes) (d : Dump) (r : Reader) : Prop where
  powerPc : d.machine = 20
  count : d.sections.length = d.shnum
  sections : d.sections = r.sections.map (sectionLine r.shstr)
  names : ∀ sh, nameOf r.shstr sh = r.name sh
  imports : d.imports =
    (r.sections.filter fun sh => sh.type = shtRplImports).map (importLine r.shstr)
  libraries : ∀ sh ∈ r.sections, sh.type = shtRplImports → ∀ lib kind,
    r.importOf sh = some (lib, kind) ↔ (importLine r.shstr sh).Of lib kind
  used : ∀ referencedOnly result, r.imports decompress referencedOnly = .ok result →
    ∀ lib entry, result.get? lib = some entry → ∀ kind, entry.names kind ≠ [] →
      ∃ line ∈ d.imports, line.Of lib kind

theorem length_mapM {α β ε : Type} {f : α → Except ε β} {xs : List α} {ys : List β}
    (h : xs.mapM f = .ok ys) : ys.length = xs.length := by
  induction xs generalizing ys with
  | nil =>
    obtain rfl := Except.ok.inj h
    rfl
  | cons x xs ih =>
    rw [List.mapM_cons] at h
    obtain ⟨y, -, h⟩ := bind_eq_ok.1 h
    obtain ⟨ys', hys, h⟩ := bind_eq_ok.1 h
    obtain rfl := Except.ok.inj h
    rw [List.length_cons, List.length_cons, ih hys]

theorem importOf_iff (htype : sh.type = shtRplImports) {lib : Str} {kind : Kind} :
    r.importOf sh = some (lib, kind) ↔ (importLine r.shstr sh).Of lib kind := by
  rw [importLine_of_iff, Reader.importOf, if_neg (not_not.2 htype)]
  rfl

theorem report_agrees (hparsed : Parsed decompress blob r) (hmachine : fieldAt blob 18 2 = 20)
    (mismatch : Option (Nat × Nat)) : (report r mismatch).Agrees decompress r where
  powerPc := by
    rw [report, hparsed.blob_eq]
    exact hmachine
  count := by
    rw [report, hparsed.blob_eq]
    dsimp only
    rw [List.length_map, length_mapM hparsed.sections, List.length_range]
  sections := rfl
  names _ := rfl
  imports := rfl
  libraries _ _ htype _ _ := importOf_iff htype
  used referencedOnly result hresult lib entry hentry kind hne := by
    obtain ⟨idx, hkind⟩ := imports_named hresult lib entry hentry kind hne
    obtain ⟨sh, hmem, himport⟩ := kinds_of_section hkind
    have htype : sh.type = shtRplImports := by
      by_contra hother
      rw [Reader.importOf, if_pos hother] at himport
      cases himport
    refine ⟨importLine r.shstr sh, ?_, (importOf_iff htype).1 himport⟩
    exact List.mem_map_of_mem (List.mem_filter.2 ⟨hmem, decide_eq_true htype⟩)

-- On every file, the dump comes to its end for a PowerPC image exactly if the reader accepts it,
-- and then both see the same sections, names and libraries, and what is imported is in the dump.
theorem dump_agrees (decompress : Bytes → Option Bytes) (blob : Bytes) :
    (∀ r, read decompress blob = .ok r →
      ∃ d, dumpSections decompress blob = .ok d ∧ d.Agrees decompress r) ∧
    ∀ d, dumpSections decompress blob = .ok d → d.machine = 20 →
      ∃ r, read decompress blob = .ok r ∧ d.Agrees decompress r := by
  constructor
  · intro r hread
    obtain ⟨hparsed, hmachine⟩ := read_eq_ok.1 hread
    obtain ⟨names, hnames, hshstr⟩ := hparsed.names
    obtain ⟨mismatch, hdata⟩ := sectionData_ok.1 hshstr
    exact ⟨report r mismatch,
      dumpSections_eq_ok.2 ⟨r, mismatch, hparsed, ⟨names, hnames, hdata⟩, rfl⟩,
      report_agrees hparsed hmachine mismatch⟩
  · intro d hdump hmachine
    obtain ⟨r, mismatch, hparsed, -, rfl⟩ := dumpSections_eq_ok.1 hdump
    rw [report, hparsed.blob_eq] at hmachine
    exact ⟨r, read_eq_ok.2 ⟨hparsed, hmachine⟩, report_agrees hparsed hmachine mismatch⟩

theorem dump_agrees_small :
    ∃ r d, read smallDecompress smallImage = .ok r ∧
      dumpSections smallDecompress smallImage = .ok d ∧ d.Agrees smallDecompress r ∧
      d.imports.map (fun line => (line.lib, line.kind)) =
        [(['a', '.', 'r', 'p', 'l'], "functions")] := by
  have hdumped : (dumpSections smallDecompress smallImage).toOption.map (fun d =>
      d.imports.map fun line => (line.lib, line.kind)) =
        some [(['a', '.', 'r', 'p', 'l'], "functions")] := by decide +kernel
  have hmachine : (dumpSections smallDecompress smallImage).toOption.map (·.machine) = some 20 := by
    decide +kernel
  cases hdump : dumpSections smallDecompress smallImage with
  | error halt =>
    rw [hdump] at hmachine
    cases hmachine
  | ok d =>
    rw [hdump] at hmachine hdumped
    obtain ⟨r, hread, hagrees⟩ :=
      (dump_agrees smallDecompress smallImage).2 d hdump (Option.some.inj hmachine)
    exact ⟨r, d, hread, rfl, hagrees, Option.some.inj hdumped⟩

end CoreinitNx.Rpx
