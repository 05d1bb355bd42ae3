import CoreinitNx.HandleTable
import CoreinitNx.Library.Simulation

namespace CoreinitNx.HandleTable.Interleaved

-- What a module's calls do: `early` is what a call returns without asking the table, `does` what
-- it does in one go to the host object of its key, and `again` says that it then asks once more.
structure Calls (τ Host Call Out : Type) where
  early : UInt64 → Call → Option Out
  does : τ → Call → Host → Out → Host → Prop
  again : Out → Bool

inductive Place (Call : Type) where
  | idle
  | entering (key : UInt64) (call : Call)
  | searching (key : UInt64) (call : Call)
  | allocated (key : UInt64) (call : Call) (host : Nat)
  | initialised (key : UInt64) (call : Call) (host : Nat)
  | unlocking (key : UInt64) (call : Call) (host : Nat)
  | working (key : UInt64) (call : Call) (host : Nat)
deriving DecidableEq, Repr

-- Between `mutexLock(&m_lock)` and `mutexUnlock(&m_lock)`.
def Place.Inside {Call : Type} : Place Call → Prop
  | .searching _ _ | .allocated _ _ _ | .initialised _ _ _ | .unlocking _ _ _ => True
  | .idle | .entering _ _ | .working _ _ _ => False

inductive Event (τ Call Out : Type) where
  | called (t : τ) (key : UInt64) (call : Call)
  | locked (t : τ)
  | found (t : τ)
  | allocated (t : τ)
  | initialised (t : τ)
  | emplaced (t : τ)
  | got (t : τ) (key : UInt64) (host : Nat)
  | done (t : τ) (key : UInt64) (call : Call) (out : Out)
deriving DecidableEq, Repr

-- `map` holds pointers, and `objects` is what the host's own heap has at each of them.
structure Table (τ Host Call : Type) where
  lock : Option τ
  map : UInt64 → Option Nat
  objects : Nat → Option Host
  place : τ → Place Call

namespace Table

variable {τ Host Call : Type}

def empty : Table τ Host Call := ⟨none, fun _ => none, fun _ => none, fun _ => .idle⟩

def goto [DecidableEq τ] (s : Table τ Host Call) (t : τ) (place : Place Call) :
    Table τ Host Call :=
  { s with place := Function.update s.place t place }

def put (s : Table τ Host Call) (p : Nat) (host : Host) : Table τ Host Call :=
  { s with objects := Function.update s.objects p (some host) }

def emplace (s : Table τ Host Call) (key : UInt64) (p : Nat) : Table τ Host Call :=
  { s with map := Function.update s.map key (some p) }

def setLock (s : Table τ Host Call) (lock : Option τ) : Table τ Host Call :=
  { s with lock := lock }

-- The object of each address as its callers see it, made yet or not.
def view [HostObject Host] (s : Table τ Host Call) (key : UInt64) : Host :=
  ((s.map key).bind s.objects).getD HostObject.init

end Table

section Steps

variable {τ Host Call Out : Type} [DecidableEq τ] [HostObject Host]

-- A pointer from `new` is to no object that still exists; what is in it before `init` is open.
inductive Step (C : Calls τ Host Call Out) :
    Table τ Host Call → Event τ Call Out → Table τ Host Call → Prop
  | rejected {s : Table τ Host Call} {t : τ} {key : UInt64} {call : Call} {out : Out} :
      s.place t = .idle → C.early key call = some out → Step C s (.done t key call out) s
  | called {s : Table τ Host Call} {t : τ} {key : UInt64} {call : Call} :
      s.place t = .idle → C.early key call = none →
      Step C s (.called t key call) (s.goto t (.entering key call))
  | locked {s : Table τ Host Call} {t : τ} {key : UInt64} {call : Call} :
      s.place t = .entering key call → s.lock = none →
      Step C s (.locked t) ((s.setLock (some t)).goto t (.searching key call))
  | found {s : Table τ Host Call} {t : τ} {key : UInt64} {call : Call} {p : Nat} :
      s.place t = .searching key call → s.map key = some p →
      Step C s (.found t) (s.goto t (.unlocking key call p))
  | allocated {s : Table τ Host Call} {t : τ} {key : UInt64} {call : Call} {p : Nat}
      {r : Host} : s.place t = .searching key call → s.map key = none → s.objects p = none →
      Step C s (.allocated t) ((s.put p r).goto t (.allocated key call p))
  | initialised {s : Table τ Host Call} {t : τ} {key : UInt64} {call : Call} {p : Nat} :
      s.place t = .allocated key call p →
      Step C s (.initialised t) ((s.put p HostObject.init).goto t (.initialised key call p))
  | emplaced {s : Table τ Host Call} {t : τ} {key : UInt64} {call : Call} {p : Nat} :
      s.place t = .initialised key call p →
      Step C s (.emplaced t) ((s.emplace key p).goto t (.unlocking key call p))
  | got {s : Table τ Host Call} {t : τ} {key : UInt64} {call : Call} {p : Nat} :
      s.place t = .unlocking key call p →
      Step C s (.got t key p) ((s.setLock none).goto t (.working key call p))
  | done {s : Table τ Host Call} {t : τ} {key : UInt64} {call : Call} {p : Nat} {host host' : Host}
      {out : Out} : s.place t = .working key call p → s.objects p = some host →
      C.does t call host out host' →
      Step C s (.done t key call out)
        ((s.put p host').goto t (if C.again out then .entering key call else .idle))

abbrev Run (C : Calls τ Host Call Out) :
    List (Event τ Call Out) → Table τ Host Call → Prop :=
  Transition.Run (Step C) .empty

def Event.outcome {τ Call Out : Type} : Event τ Call Out → Option (τ × UInt64 × Call × Out)
  | .done t key call out => some (t, key, call, out)
  | _ => none

end Steps

namespace Table

variable {τ Host Call : Type} {s : Table τ Host Call} {t u : τ} {place : Place Call}
  {key k : UInt64} {p q : Nat} {call : Call} {host : Host}

theorem put_self (s : Table τ Host Call) (p : Nat) (host : Host) :
    (s.put p host).objects p = some host := Function.update_self _ _ _

theorem put_ne (s : Table τ Host Call) (host : Host) (h : q ≠ p) :
    (s.put p host).objects q = s.objects q := Function.update_of_ne h _ _

theorem emplace_self (s : Table τ Host Call) (key : UInt64) (p : Nat) :
    (s.emplace key p).map key = some p := Function.update_self _ _ _

theorem emplace_ne (s : Table τ Host Call) (p : Nat) (h : k ≠ key) :
    (s.emplace key p).map k = s.map k := Function.update_of_ne h _ _

theorem emplace_some (h : (s.emplace key p).map k = some q) :
    k = key ∧ q = p ∨ s.map k = some q := by
  by_cases hk : k = key
  · rw [hk, emplace_self] at h
    exact .inl ⟨hk, (Option.some.inj h).symm⟩
  · rw [emplace_ne s p hk] at h
    exact .inr h

section View

variable [HostObject Host]

theorem view_of_none (h : s.map k = none) : s.view k = HostObject.init := by
  rw [view, h]
  rfl

theorem view_of_some (h : s.map k = some p) (ho : s.objects p = some host) : s.view k = host := by
  rw [view, h, Option.bind_some, ho]
  rfl

-- An object no address leads to can change unseen.
theorem view_put_of_unmapped (h : ∀ k, s.map k ≠ some p) : (s.put p host).view = s.view := by
  funext k
  cases hm : s.map k with
  | none => exact (view_of_none (s := s.put p host) hm).trans (view_of_none hm).symm
  | some q =>
    have hne : q ≠ p := fun he => h k (by rw [hm, he])
    have hbind : (s.put p host).objects q = s.objects q := put_ne s host hne
    rw [view, view, hm, show (s.put p host).map k = some q from hm, Option.bind_some,
      Option.bind_some, hbind]

theorem view_put_of_mapped (hm : s.map key = some p)
    (hinj : ∀ {k}, s.map k = some p → k = key) :
    (s.put p host).view = Function.update s.view key host := by
  funext k
  by_cases hk : k = key
  · rw [hk, Function.update_self]
    exact view_of_some (s := s.put p host) hm (put_self s p host)
  · rw [Function.update_of_ne hk]
    cases hq : s.map k with
    | none => exact (view_of_none (s := s.put p host) hq).trans (view_of_none hq).symm
    | some q =>
      have hne : q ≠ p := fun he => hk (hinj (by rw [hq, he]))
      rw [view, view, hq, show (s.put p host).map k = some q from hq, Option.bind_some,
        Option.bind_some, put_ne s host hne]

theorem view_emplace (hm : s.map key = none) (ho : s.objects p = some HostObject.init) :
    (s.emplace key p).view = s.view := by
  funext k
  by_cases hk : k = key
  · rw [hk, view_of_none hm]
    exact view_of_some (s := s.emplace key p) (emplace_self s key p) ho
  · rw [view, view, emplace_ne s p hk]
    rfl

end View

section Threads

variable [HostObject Host]

-- What a thread may rely on where it stands.
def Local (s : Table τ Host Call) (t : τ) : Place Call → Prop
  | .idle | .entering _ _ => True
  | .searching _ _ => s.lock = some t
  | .allocated key _ p => s.lock = some t ∧ s.map key = none ∧ ∀ k, s.map k ≠ some p
  | .initialised key _ p => s.lock = some t ∧ s.map key = none ∧ (∀ k, s.map k ≠ some p) ∧
      s.objects p = some HostObject.init
  | .unlocking key _ p => s.lock = some t ∧ s.map key = some p
  | .working key _ p => s.map key = some p

theorem Local.outside (h : s.Local u place) (hlock : s.lock = some t) (hne : u ≠ t) :
    ¬place.Inside := by
  have hother : s.lock ≠ some u := by
    rw [hlock]
    exact fun he => hne (Option.some.inj he).symm
  cases place with
  | idle | entering _ _ | working _ _ _ => exact id
  | searching _ _ => exact absurd h hother
  | allocated _ _ _ | initialised _ _ _ | unlocking _ _ _ => exact absurd h.1 hother

theorem Local.setLock (h : s.Local u place) (hout : ¬place.Inside) (lock : Option τ) :
    (s.setLock lock).Local u place := by
  cases place with
  | idle | entering _ _ | working _ _ _ => exact h
  | searching _ _ | allocated _ _ _ | initialised _ _ _ | unlocking _ _ _ =>
    exact absurd trivial hout

theorem not_initialised (hout : ¬place.Inside) (key : UInt64) (call : Call) :
    place ≠ .initialised key call p := by
  rintro rfl
  exact hout trivial

theorem Local.put (h : s.Local u place) (hp : ∀ key call, place ≠ .initialised key call p)
    (host : Host) : (s.put p host).Local u place := by
  cases place with
  | idle | entering _ _ | searching _ _ | allocated _ _ _ | unlocking _ _ _ | working _ _ _ => exact h
  | initialised key call q =>
    have hne : q ≠ p := fun he => hp key call (by rw [he])
    exact ⟨h.1, h.2.1, h.2.2.1, (put_ne s host hne).trans h.2.2.2⟩

theorem Local.emplace (h : s.Local u place) (hout : ¬place.Inside) (hm : s.map key = none) :
    (s.emplace key p).Local u place := by
  cases place with
  | idle | entering _ _ => exact h
  | working k call q =>
    have hne : k ≠ key := fun he => by rw [← he, show s.map k = some q from h] at hm; cases hm
    exact (emplace_ne s p hne).trans h
  | searching _ _ | allocated _ _ _ | initialised _ _ _ | unlocking _ _ _ =>
    exact absurd trivial hout

structure Inv (s : Table τ Host Call) : Prop where
  live : ∀ {key p}, s.map key = some p → (s.objects p).isSome
  injective : ∀ {key key' p}, s.map key = some p → s.map key' = some p → key = key'
  threads : ∀ t, s.Local t (s.place t)

theorem inv_empty : (empty : Table τ Host Call).Inv :=
  ⟨nofun, nofun, fun _ => trivial⟩

namespace Inv

theorem live_put (hi : s.Inv) (host : Host) {key : UInt64} {q : Nat} (h : s.map key = some q) :
    ((s.put p host).objects q).isSome := by
  by_cases hq : q = p
  · rw [hq, put_self]
    rfl
  · rw [put_ne s host hq]
    exact hi.live h

-- While `t` is inside, the others are outside.
theorem outside (hi : s.Inv) (hlock : s.lock = some t) (hu : u ≠ t) : ¬(s.place u).Inside :=
  (hi.threads u).outside hlock hu

theorem unmapped (hi : s.Inv) (hnew : s.objects p = none) (k : UInt64) : s.map k ≠ some p := by
  intro hk
  have hs := hi.live hk
  rw [hnew] at hs
  cases hs

end Inv

end Threads

section Goto

variable [DecidableEq τ]

theorem goto_place_self (s : Table τ Host Call) (t : τ) (place : Place Call) :
    (s.goto t place).place t = place := Function.update_self _ _ _

theorem goto_place_ne (s : Table τ Host Call) (place : Place Call) (h : u ≠ t) :
    (s.goto t place).place u = s.place u := Function.update_of_ne h _ _

variable [HostObject Host]

theorem view_goto (s : Table τ Host Call) (t : τ) (place : Place Call) :
    (s.goto t place).view = s.view := rfl

-- After a step of `t` the others rely on what they relied on before.
theorem Inv.goto (hlive : ∀ {key p}, s.map key = some p → (s.objects p).isSome)
    (hinj : ∀ {key key' p}, s.map key = some p → s.map key' = some p → key = key')
    (hself : s.Local t place) (hothers : ∀ u, u ≠ t → s.Local u (s.place u)) :
    (s.goto t place).Inv := by
  refine ⟨hlive, hinj, fun u => ?_⟩
  by_cases hu : u = t
  · rw [hu, goto_place_self]
    exact hself
  · rw [goto_place_ne _ _ hu]
    exact hothers u hu

end Goto

end Table

open Table

variable {τ Host Call Out : Type} [DecidableEq τ] [HostObject Host] {C : Calls τ Host Call Out}
  {s s' : Table τ Host Call} {e : Event τ Call Out} {es : List (Event τ Call Out)} {t : τ}
  {key k : UInt64} {p : Nat}

theorem Step.inv (h : Step C s e s') (hi : s.Inv) : s'.Inv := by
  cases h with
  | rejected _ _ => exact hi
  | called _ _ => exact .goto hi.live hi.injective trivial fun u _ => hi.threads u
  | @locked t key call hp hfree =>
    refine .goto hi.live hi.injective rfl fun u _ => (hi.threads u).setLock ?_ _
    intro hin
    have hlock : s.lock = some u := by
      have hl := hi.threads u
      cases hpl : s.place u with
      | idle | entering _ _ | working _ _ _ => rw [hpl] at hin; exact hin.elim
      | searching _ _ => rw [hpl] at hl; exact hl
      | allocated _ _ _ | initialised _ _ _ | unlocking _ _ _ => rw [hpl] at hl; exact hl.1
    rw [hfree] at hlock
    cases hlock
  | @found t key call p hp hm =>
    have hl := hi.threads t
    rw [hp] at hl
    exact .goto hi.live hi.injective ⟨hl, hm⟩ fun u _ => hi.threads u
  | @allocated t key call p r hp hm hnew =>
    have hl := hi.threads t
    rw [hp] at hl
    exact .goto (hi.live_put r) hi.injective ⟨hl, hm, hi.unmapped hnew⟩ fun u hu =>
      (hi.threads u).put (not_initialised (hi.outside hl hu)) _
  | @initialised t key call p hp =>
    have hl := hi.threads t
    rw [hp] at hl
    exact .goto (hi.live_put _) hi.injective ⟨hl.1, hl.2.1, hl.2.2, Function.update_self _ _ _⟩
      fun u hu => (hi.threads u).put (not_initialised (hi.outside hl.1 hu)) _
  | @emplaced t key call p hp =>
    have hl := hi.threads t
    rw [hp] at hl
    obtain ⟨hlock, hm, hun, hobj⟩ := hl
    refine .goto ?_ ?_ ⟨hlock, Function.update_self _ _ _⟩ fun u hu =>
      (hi.threads u).emplace (hi.outside hlock hu) hm
    · intro k q hk
      rcases emplace_some hk with ⟨-, rfl⟩ | hold
      · rw [Table.emplace, hobj]
        rfl
      · exact hi.live hold
    · intro k k' q hk hk'
      rcases emplace_some hk with ⟨rfl, rfl⟩ | hold <;>
        rcases emplace_some hk' with ⟨rfl, hq⟩ | hold'
      · rfl
      · exact absurd hold' (hun k')
      · exact absurd (hq ▸ hold) (hun k)
      · exact hi.injective hold hold'
  | @got t key call p hp =>
    have hl := hi.threads t
    rw [hp] at hl
    exact .goto hi.live hi.injective hl.2 fun u hu =>
      (hi.threads u).setLock (hi.outside hl.1 hu) _
  | @done t key call p host host' out hp ho _ =>
    have hl := hi.threads t
    rw [hp] at hl
    refine .goto (hi.live_put host') hi.injective (by split <;> trivial) fun u _ =>
      (hi.threads u).put ?_ _
    intro k call' hpl
    have hu := hi.threads u
    rw [hpl] at hu
    exact absurd hl (hu.2.2.1 key)

-- One object for each address, there from the start, and each call one step on it.
inductive Atomic (C : Calls τ Host Call Out) :
    (UInt64 → Host) → τ × UInt64 × Call × Out → (UInt64 → Host) → Prop
  | rejected {objects : UInt64 → Host} {t : τ} {key : UInt64} {call : Call} {out : Out} :
      C.early key call = some out → Atomic C objects (t, key, call, out) objects
  | done {objects : UInt64 → Host} {t : τ} {key : UInt64} {call : Call} {out : Out}
      {host : Host} : C.does t call (objects key) out host →
      Atomic C objects (t, key, call, out) (Function.update objects key host)

theorem simulates : Transition.Simulates (Step C) (Atomic C) Table.view Event.outcome Inv where
  keeps hi hs := hs.inv hi
  moves {s e s' e'} hi hs hl := by
    cases hs with
    | rejected _ hearly =>
      cases hl
      exact .rejected hearly
    | @done t key call p host host' out hp ho hdoes =>
      cases hl
      have hm := hi.threads t
      rw [hp] at hm
      rw [view_goto, view_put_of_mapped hm fun hk => hi.injective hk hm]
      rw [← view_of_some hm ho] at hdoes
      exact .done hdoes
    | called | locked | found | allocated | initialised | emplaced | got => cases hl
  stutters {s e s'} hi hs hl := by
    cases hs with
    | rejected | done => cases hl
    | called | locked | found | got => rfl
    | @allocated t key call p r hp hm hnew => exact view_put_of_unmapped (hi.unmapped hnew)
    | @initialised t key call p hp =>
      have hl := hi.threads t
      rw [hp] at hl
      exact view_put_of_unmapped hl.2.2
    | @emplaced t key call p hp =>
      have hl := hi.threads t
      rw [hp] at hl
      exact view_emplace hl.2.1 hl.2.2.2

theorem Step.map_eq (h : Step C s e s') (hi : s.Inv) (hm : s.map k = some p) :
    s'.map k = some p := by
  cases h with
  | @emplaced t key call q hp =>
    have hl := hi.threads t
    rw [hp] at hl
    have hne : k ≠ key := fun he => Option.some_ne_none _ (hm.symm.trans (he ▸ hl.2.1))
    exact (emplace_ne s q hne).trans hm
  | rejected | called | locked | found | allocated | initialised | got | done => exact hm

theorem Step.map_of_got (h : Step C s (.got t key p) s') (hi : s.Inv) : s'.map key = some p := by
  cases h with
  | got hp =>
    have hl := hi.threads t
    rw [hp] at hl
    exact hl.2

theorem Run.map_of_got (h : Run C es s) (hgot : .got t key p ∈ es) : s.map key = some p := by
  induction h with
  | nil => cases hgot
  | @snoc es s s' e hrun hs ih =>
    obtain ⟨hi, -⟩ := simulates.run inv_empty hrun
    rcases List.mem_append.1 hgot with hold | hnew
    · exact hs.map_eq hi (ih hold)
    · rw [List.mem_singleton] at hnew
      rw [← hnew] at hs
      exact hs.map_of_got hi

-- A call of the sequential table: `get`, then what the call does through the pointer.
inductive TableStep (C : Calls τ Host Call Out) :
    HandleTable Host → τ × UInt64 × Call × Out → HandleTable Host → Prop
  | rejected {T : HandleTable Host} {t : τ} {key : UInt64} {call : Call} {out : Out} :
      C.early key call = some out → TableStep C T (t, key, call, out) T
  | done {T : HandleTable Host} {t : τ} {key : UInt64} {call : Call} {out : Out} {host : Host} :
      C.does t call (T.get key).1 out host →
      TableStep C T (t, key, call, out) ((T.get key).2.store key host)

omit [DecidableEq τ] in
theorem Atomic.tableStep {T : HandleTable Host} {call : τ × UInt64 × Call × Out}
    {objects : UInt64 → Host} (h : Atomic C T.view call objects) :
    ∃ T', TableStep C T call T' ∧ T'.view = objects := by
  cases h with
  | rejected hearly => exact ⟨T, .rejected hearly, rfl⟩
  | @done t key call out host hdoes =>
    rw [← HandleTable.get_fst] at hdoes
    refine ⟨_, .done hdoes, funext fun k => ?_⟩
    by_cases hk : k = key
    · rw [hk, HandleTable.view_store_same, Function.update_self]
    · rw [HandleTable.view_store_ne _ _ hk, HandleTable.view_get, Function.update_of_ne hk]

omit [DecidableEq τ] in
theorem tableRun_of_atomic {calls : List (τ × UInt64 × Call × Out)} {objects : UInt64 → Host}
    (h : Transition.Run (Atomic C) (HandleTable.empty : HandleTable Host).view calls objects) :
    ∃ T, Transition.Run (TableStep C) HandleTable.empty calls T ∧ T.view = objects := by
  induction h with
  | nil => exact ⟨_, .nil, rfl⟩
  | snoc _ hs ih =>
    obtain ⟨T, hrun, rfl⟩ := ih
    obtain ⟨T', hstep, hview⟩ := hs.tableStep
    exact ⟨T', hrun.snoc hstep, hview⟩

theorem Run.atomic (h : Run C es s) :
    Transition.Run (Atomic C) (fun _ => HostObject.init) (es.filterMap Event.outcome) s.view :=
  (simulates.run inv_empty h).2

theorem get_is_atomic (h : Run C es s) :
    (∃ T, Transition.Run (TableStep C) HandleTable.empty (es.filterMap Event.outcome) T ∧
      T.view = s.view) ∧
      ∀ t key p u k q, .got t key p ∈ es → .got u k q ∈ es → (p = q ↔ key = k) := by
  obtain ⟨hi, hrun⟩ := simulates.run inv_empty h
  refine ⟨tableRun_of_atomic hrun, fun t key p u k q hp hq => ?_⟩
  have hkey := Run.map_of_got h hp
  have hk := Run.map_of_got h hq
  constructor
  · rintro rfl
    exact hi.injective hkey hk
  · rintro rfl
    exact Option.some.inj (hkey.symm.trans hk)

section Race

instance : HostObject Bool := ⟨false⟩

def raceCalls : Calls Bool Bool Unit Bool :=
  ⟨fun _ _ => none, fun _ _ host out host' => out = host ∧ host' = true, fun _ => false⟩

-- Both threads are the first to name address 8; the one that is late finds the other's object.
theorem get_is_atomic_race :
    ∃ (es : List (Event Bool Unit Bool)) (s : Table Bool Bool Unit), Run raceCalls es s ∧
      .got true 8 3 ∈ es ∧ .got false 8 3 ∈ es ∧
      (∃ T, Transition.Run (TableStep raceCalls) HandleTable.empty
        [(true, 8, (), false), (false, 8, (), true)] T ∧ T.view = s.view) ∧
      ∀ t key p u k q, .got t key p ∈ es → .got u k q ∈ es → (p = q ↔ key = k) := by
  have first : raceCalls.does true () false false true := ⟨rfl, rfl⟩
  have second : raceCalls.does false () true true true := ⟨rfl, rfl⟩
  have h0 : Run raceCalls [] _ := .nil
  have h1 := h0.snoc (e := .called false 8 ()) (.called rfl rfl)
  have h2 := h1.snoc (e := .called true 8 ()) (.called rfl rfl)
  have h3 := h2.snoc (e := .locked true) (.locked rfl rfl)
  have h4 := h3.snoc (e := .allocated true) (.allocated (p := 3) (r := true) rfl rfl rfl)
  have h5 := h4.snoc (e := .initialised true) (.initialised rfl)
  have h6 := h5.snoc (e := .emplaced true) (.emplaced rfl)
  have h7 := h6.snoc (e := .got true 8 3) (.got rfl)
  have h8 := h7.snoc (e := .locked false) (.locked rfl rfl)
  have h9 := h8.snoc (e := .found false) (.found rfl rfl)
  have h10 := h9.snoc (e := .done true 8 () false) (.done rfl rfl first)
  have h11 := h10.snoc (e := .got false 8 3) (.got rfl)
  have h12 := h11.snoc (e := .done false 8 () true) (.done rfl rfl second)
  exact ⟨_, _, h12, by decide, by decide, (get_is_atomic h12).1, (get_is_atomic h12).2⟩

end Race

end CoreinitNx.HandleTable.Interleaved
