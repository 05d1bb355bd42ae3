import CoreinitNx.Rpx.Basic

namespace CoreinitNx.Rpx

def fieldAt (b : Bytes) (off size : Nat) : Nat := bigEndian (slice b off (off + size))

def shoff (blob : Bytes) : Nat := fieldAt blob 32 4

def shentsize (blob : Bytes) : Nat := fieldAt blob 46 2

def shnum (blob : Bytes) : Nat := fieldAt blob 48 2

def shstrndx (blob : Bytes) : Nat := fieldAt blob 50 2

def headerAt (blob : Bytes) (i : Nat) : Nat := shoff blob + i * shentsize blob

def sectionAt (blob : Bytes) (i : Nat) : Section where
  idx := i
  nameOff := fieldAt blob (headerAt blob i) 4
  type := fieldAt blob (headerAt blob i + 4) 4
  flags := fieldAt blob (headerAt blob i + 8) 4
  addr := fieldAt blob (headerAt blob i + 12) 4
  offset := fieldAt blob (headerAt blob i + 16) 4
  size := fieldAt blob (headerAt blob i + 20) 4
  link := fieldAt blob (headerAt blob i + 24) 4
  info := fieldAt blob (headerAt blob i + 28) 4
  entsize := fieldAt blob (headerAt blob i + 36) 4

structure Symbol where
  name : Nat
  info : Nat
  shndx : Nat

def symbolAt (symtab : Bytes) (i : Nat) : Symbol where
  name := fieldAt symtab (i * 16) 4
  info := fieldAt symtab (i * 16 + 12) 1
  shndx := fieldAt symtab (i * 16 + 14) 2

-- The number of the symbol that a relocation names, above its type in the low byte.
def relocatedAt (rela : Bytes) (k : Nat) : Nat := fieldAt rela (k * 12 + 4) 4 / 256

-- The text from `start` to the next NUL.
def cString (table : Bytes) (start : Nat) : Str := decode ((table.drop start).takeWhile (· != 0))

def rawBytes (blob : Bytes) (sh : Section) : Bytes := slice blob sh.offset (sh.offset + sh.size)

-- A compressed section is a length of four bytes and the stream that it deflates to.
inductive Contents (Deflates : Bytes → Bytes → Prop) (blob : Bytes) (sh : Section) : Bytes → Prop
  | plain : sh.flags &&& shfRplZlib = 0 → Contents Deflates blob sh (rawBytes blob sh)
  | empty : sh.flags &&& shfRplZlib ≠ 0 → (rawBytes blob sh).length < 4 →
      Contents Deflates blob sh []
  | deflated {content : Bytes} : sh.flags &&& shfRplZlib ≠ 0 → 4 ≤ (rawBytes blob sh).length →
      Deflates content ((rawBytes blob sh).drop 4) → Contents Deflates blob sh content

def Terminated (table : Bytes) : Prop := ∀ last ∈ table.getLast?, last = 0

structure WellFormed (Deflates : Bytes → Bytes → Prop) (blob : Bytes) : Prop where
  magic : slice blob 0 4 = elfMagic
  bits32 : blob[4]? = some 1
  bigEndian : blob[5]? = some 2
  powerPc : fieldAt blob 18 2 = 20
  header : 52 ≤ blob.length
  headers : ∀ i < shnum blob, headerAt blob i + 40 ≤ blob.length
  contents : ∀ i < shnum blob, ∃ content, Contents Deflates blob (sectionAt blob i) content
  names : shstrndx blob < shnum blob
  namesTerminated : ∀ table, Contents Deflates blob (sectionAt blob (shstrndx blob)) table →
    Terminated table
  links : ∀ i < shnum blob, (sectionAt blob i).type = shtSymtab →
    (sectionAt blob i).link < shnum blob
  stringsTerminated : ∀ i < shnum blob, (sectionAt blob i).type = shtSymtab →
    ∀ table, Contents Deflates blob (sectionAt blob (sectionAt blob i).link) table →
      Terminated table

variable {Deflates : Bytes → Bytes → Prop} {decompress : Bytes → Option Bytes} {blob b content : Bytes}
  {sh : Section} {i start : Nat}

theorem data_eq (hzlib : ∀ content stream, Deflates content stream → decompress stream = some content)
    (h : Contents Deflates blob sh content) : data decompress blob sh = .ok content := by
  cases h with
  | plain hflag => exact if_pos hflag
  | empty hflag hshort =>
    rw [data]
    exact (if_neg hflag).trans (if_pos hshort)
  | deflated hflag hlong hstream =>
    rw [rawBytes] at hlong hstream
    simp only [data]
    rw [if_neg hflag, if_neg (Nat.not_lt.2 hlong), hzlib _ _ hstream]

theorem stringAt_eq {table : Bytes} (h : Terminated table) (start : Nat) :
    stringAt table start = cString table start := congrArg decode (sliceUntil_find h)

def fieldsAt : List Nat → Bytes → Nat → List Nat
  | [], _, _ => []
  | size :: sizes, b, off => fieldAt b off size :: fieldsAt sizes b (off + size)

theorem unpackFields_slice {sizes : List Nat} {stop : Nat} (h : start + sizes.sum ≤ stop) :
    unpackFields sizes (slice b start stop) = fieldsAt sizes b start := by
  induction sizes generalizing start with
  | nil => rfl
  | cons size sizes ih =>
    rw [List.sum_cons] at h
    have hhead : (slice b start stop).take size = slice b start (start + size) := by
      rw [slice, slice, List.take_take]
      congr 1
      omega
    have htail : (slice b start stop).drop size = slice b (start + size) stop := by
      rw [slice, slice, List.drop_take, List.drop_drop]
      congr 1
      omega
    rw [unpackFields, fieldsAt, fieldAt, hhead, htail, ih (by omega)]

theorem unpack_slice {sizes : List Nat} (h : start + sizes.sum ≤ b.length) :
    unpack sizes (slice b start (start + sizes.sum)) = .ok (fieldsAt sizes b start) := by
  rw [unpack_ok, unpackFields_slice le_rfl]
  rw [length_slice h (Nat.le_add_right _ _), Nat.add_sub_cancel_left]

theorem readSection_eq (h : headerAt blob i + 40 ≤ blob.length) :
    readSection blob (shoff blob) (shentsize blob) i = .ok (sectionAt blob i) := by
  have hunpack : unpack [4, 4, 4, 4, 4, 4, 4, 4, 4, 4]
      (slice blob (headerAt blob i) (headerAt blob i + 40)) = _ := unpack_slice h
  rw [headerAt] at hunpack
  rw [readSection, hunpack]
  rfl

theorem ok_bind {α β ε : Type} {x : α} {f : α → Except ε β} : (Except.ok x >>= f) = f x := rfl

theorem mapM_ok {α β ε : Type} {f : α → Except ε β} {g : α → β} {xs : List α}
    (h : ∀ x ∈ xs, f x = .ok (g x)) : xs.mapM f = .ok (xs.map g) := by
  induction xs with
  | nil => rfl
  | cons x xs ih =>
    rw [List.mapM_cons, h x List.mem_cons_self, ih fun y hy => h y (List.mem_cons_of_mem x hy)]
    rfl

theorem foldlM_ok {α β ε : Type} {f : β → α → Except ε β} {g : β → α → β} {xs : List α} {b : β}
    (h : ∀ x ∈ xs, ∀ b, f b x = .ok (g b x)) : xs.foldlM f b = .ok (xs.foldl g b) := by
  induction xs generalizing b with
  | nil => rfl
  | cons x xs ih =>
    rw [List.foldlM_cons, h x List.mem_cons_self, ok_bind]
    exact ih fun y hy => h y (List.mem_cons_of_mem x hy)

theorem getItem_eq {α : Type} {xs : List α} {x : α} (h : xs[i]? = some x) : getItem xs i = .ok x := by
  rw [getItem, h]

def imageSections (blob : Bytes) : List Section := (List.range (shnum blob)).map (sectionAt blob)

theorem imageSections_getElem? (h : i < shnum blob) :
    (imageSections blob)[i]? = some (sectionAt blob i) := by
  rw [imageSections, List.getElem?_map, List.getElem?_range h]
  rfl

theorem checkHeader_eq (wf : WellFormed Deflates blob) : checkHeader blob = .ok () := by
  have hunpack : unpack [2] (slice blob 18 20) = _ :=
    unpack_slice (Nat.le_trans (by decide) wf.header)
  rw [checkHeader, if_neg (not_not.2 wf.magic), getItem_eq wf.bits32, getItem_eq wf.bigEndian,
    hunpack]
  exact if_neg (not_not.2 wf.powerPc)

theorem read_eq (hzlib : ∀ content stream, Deflates content stream → decompress stream = some content)
    (wf : WellFormed Deflates blob) {names : Bytes}
    (hnames : Contents Deflates blob (sectionAt blob (shstrndx blob)) names) :
    read decompress blob = .ok ⟨blob, imageSections blob, names⟩ := by
  have hunpack : unpack [2, 2, 4, 4, 4, 4, 4, 2, 2, 2, 2, 2, 2] (slice blob 16 52) = _ :=
    unpack_slice wf.header
  have hsections : (List.range (shnum blob)).mapM
      (readSection blob (shoff blob) (shentsize blob)) = .ok (imageSections blob) :=
    mapM_ok fun i hi => readSection_eq (wf.headers i (List.mem_range.1 hi))
  rw [read, checkHeader_eq wf, readSections, hunpack]
  change ((List.range (shnum blob)).mapM (readSection blob (shoff blob) (shentsize blob)) >>=
    fun sections => getItem sections (shstrndx blob) >>= fun sh => data decompress blob sh >>=
      fun shstr => Except.ok (Reader.mk blob sections shstr)) = _
  rw [hsections, ok_bind, getItem_eq (imageSections_getElem? wf.names), ok_bind,
    data_eq hzlib hnames, ok_bind]

end CoreinitNx.Rpx
