import Mathlib
import CoreinitNx.Alarm.Armed

namespace CoreinitNx.Alarm

variable {s : State} {a : OSAlarm} {h : HostAlarm} {now nearest m : OSTime}
  {timeout : Option UInt64} {alarms alarms' : Alarms} {clock clock' : Clock} {since : OSTime}

-- The system time, as an exact number of ticks, at which the clock would read `due`.
def deadline (clock : Clock) (due : OSTime) : Int :=
  clock.systemTime.toInt + (due.toInt - clock.osGetTime.toInt)

-- A tick is 32000 / 1989 ns. A sleep since `since` ends no later than any armed deadline, or at
-- once.
def InTime (alarms : Alarms) (clock : Clock) (since : OSTime) : Option UInt64 → Prop
  | none => ∀ (a : OSAlarm) h, alarms[a]? = some h → h.armed = false
  | some ns => ∀ (a : OSAlarm) h, alarms[a]? = some h → h.armed = true →
      32000 * since.toInt + 1989 * ns.toNat ≤
        32000 * max since.toInt (deadline clock h.due)

-- Whatever is armed was, for the same deadline.
def ArmsNothing (alarms alarms' : Alarms) : Prop :=
  ∀ (a : OSAlarm) h, alarms'[a]? = some h → h.armed = true →
    ∃ h', alarms[a]? = some h' ∧ h'.armed = true ∧ h'.due = h.due

def Earliest (alarms : Alarms) (m : OSTime) : Prop :=
  (∃ (a : OSAlarm) (h : HostAlarm), alarms[a]? = some h ∧ h.armed = true ∧ h.due = m) ∧
    ∀ (a : OSAlarm) h, alarms[a]? = some h → h.armed = true → m ≤ h.due

theorem ticksToNs_le (ticks : OSTime) :
    1989 * ((ticksToNs ticks).toNat : Int) ≤ 32000 * max 0 ticks.toInt := by
  rw [ticksToNs]
  split
  next hpos =>
    have hlt : 0 < ticks.toInt := Int64.lt_iff_toInt_lt.1 hpos
    have hnat : ticks.toUInt64.toNat = ticks.toInt.toNat :=
      Int64.toNat_toUInt64_of_le (Int64.le_iff_toInt_le.2 (Int.le_of_lt hlt))
    -- The product may wrap, which only makes the sleep shorter.
    have hwrap : (ticks.toUInt64 * 32000).toNat ≤ ticks.toInt.toNat * 32000 := by
      rw [UInt64.toNat_mul, hnat]
      exact Nat.mod_le _ _
    have hdiv : (ticks.toUInt64 * 32000 / 1989).toNat = (ticks.toUInt64 * 32000).toNat / 1989 :=
      UInt64.toNat_div _ _
    omega
  next =>
    rw [UInt64.toNat_zero]
    omega

theorem nearer_of_not_due {entry : OSAlarm × HostAlarm} (hdue : entry.2.isDue now = false) :
    nearer now nearest entry =
      if entry.2.armed && (nearest = 0 || entry.2.due < nearest) then entry.2.due else nearest := by
  have hsettle : entry.2.settle now = entry.2 := by
    rw [HostAlarm.settle, if_neg (ne_true_of_eq_false hdue)]
  rw [nearer, hsettle, HostAlarm.nearest]

-- Once the earliest deadline has been met, and it is not 0, no later alarm replaces it.
theorem foldl_nearer_kept {entries : List (OSAlarm × HostAlarm)} (hm : m ≠ 0)
    (hdue : ∀ entry ∈ entries, entry.2.isDue now = false)
    (hle : ∀ entry ∈ entries, entry.2.armed = true → m ≤ entry.2.due) :
    entries.foldl (nearer now) m = m := by
  induction entries with
  | nil => rfl
  | cons entry entries ih =>
    have hkeep : nearer now m entry = m := by
      rw [nearer_of_not_due (hdue entry List.mem_cons_self)]
      refine if_neg fun hcond => ?_
      simp only [Bool.and_eq_true, Bool.or_eq_true, decide_eq_true_eq] at hcond
      obtain ⟨harmed, hzero | hless⟩ := hcond
      · exact hm hzero
      · exact Int64.not_lt.2 (hle entry List.mem_cons_self harmed) hless
    rw [List.foldl_cons, hkeep]
    exact ih (fun x hx => hdue x (List.mem_cons_of_mem _ hx))
      fun x hx => hle x (List.mem_cons_of_mem _ hx)

theorem foldl_nearer_earliest {entries : List (OSAlarm × HostAlarm)} (hm : m ≠ 0)
    (hdue : ∀ entry ∈ entries, entry.2.isDue now = false)
    (hle : ∀ entry ∈ entries, entry.2.armed = true → m ≤ entry.2.due)
    (hmem : ∃ entry ∈ entries, entry.2.armed = true ∧ entry.2.due = m)
    (hstart : nearest = 0 ∨ m ≤ nearest) : entries.foldl (nearer now) nearest = m := by
  induction entries generalizing nearest with
  | nil =>
    obtain ⟨entry, hentry, -⟩ := hmem
    cases hentry
  | cons entry entries ih =>
    have hdue' : ∀ x ∈ entries, x.2.isDue now = false := fun x hx =>
      hdue x (List.mem_cons_of_mem _ hx)
    have hle' : ∀ x ∈ entries, x.2.armed = true → m ≤ x.2.due := fun x hx =>
      hle x (List.mem_cons_of_mem _ hx)
    rw [List.foldl_cons, nearer_of_not_due (hdue entry List.mem_cons_self)]
    by_cases hhere : entry.2.armed = true ∧ entry.2.due = m
    · obtain ⟨harmed, hat⟩ := hhere
      have hm' : (if entry.2.armed && (nearest = 0 || entry.2.due < nearest) then entry.2.due
          else nearest) = m := by
        split
        next => exact hat
        next hcond =>
          simp only [Bool.and_eq_true, Bool.or_eq_true, decide_eq_true_eq, harmed, true_and,
            not_or, hat] at hcond
          exact Int64.le_antisymm (Int64.not_lt.1 hcond.2) (hstart.resolve_left hcond.1)
      rw [hm']
      exact foldl_nearer_kept hm hdue' hle'
    · obtain ⟨x, hx, hprop⟩ := hmem
      have hrest : ∃ x ∈ entries, x.2.armed = true ∧ x.2.due = m := by
        rcases List.mem_cons.1 hx with rfl | hx
        · exact absurd hprop hhere
        · exact ⟨x, hx, hprop⟩
      refine ih hdue' hle' hrest ?_
      split
      next hcond =>
        rw [Bool.and_eq_true] at hcond
        exact .inr (hle entry List.mem_cons_self hcond.1)
      next => exact hstart

theorem exists_earliest_of_mem {entries : List (OSAlarm × HostAlarm)}
    (harmed : ∃ entry ∈ entries, entry.2.armed = true) :
    ∃ m, (∃ entry ∈ entries, entry.2.armed = true ∧ entry.2.due = m) ∧
      ∀ entry ∈ entries, entry.2.armed = true → m ≤ entry.2.due := by
  induction entries with
  | nil =>
    obtain ⟨entry, hentry, -⟩ := harmed
    cases hentry
  | cons entry entries ih =>
    by_cases hrest : ∃ x ∈ entries, x.2.armed = true
    · obtain ⟨m, ⟨x, hx, hxm⟩, hle⟩ := ih hrest
      by_cases hhere : entry.2.armed = true ∧ entry.2.due ≤ m
      · refine ⟨entry.2.due, ⟨entry, List.mem_cons_self, hhere.1, rfl⟩, fun y hy hya => ?_⟩
        rcases List.mem_cons.1 hy with rfl | hy
        · exact Int64.le_refl _
        · exact Int64.le_trans hhere.2 (hle y hy hya)
      · refine ⟨m, ⟨x, List.mem_cons_of_mem _ hx, hxm⟩, fun y hy hya => ?_⟩
        rcases List.mem_cons.1 hy with rfl | hy
        · exact Int64.le_of_lt (Int64.not_le.1 fun hle => hhere ⟨hya, hle⟩)
        · exact hle y hy hya
    · obtain ⟨x, hx, hxa⟩ := harmed
      rcases List.mem_cons.1 hx with rfl | hx
      · refine ⟨x.2.due, ⟨x, List.mem_cons_self, hxa, rfl⟩, fun y hy hya => ?_⟩
        rcases List.mem_cons.1 hy with rfl | hy
        · exact Int64.le_refl _
        · exact absurd ⟨y, hy, hya⟩ hrest
      · exact absurd ⟨x, hx, hxa⟩ hrest

theorem earliest_iff :
    Earliest alarms m ↔
      (∃ entry ∈ alarms.toList, entry.2.armed = true ∧ entry.2.due = m) ∧
        ∀ entry ∈ alarms.toList, entry.2.armed = true → m ≤ entry.2.due := by
  constructor
  · rintro ⟨⟨a, h, hget, hprop⟩, hle⟩
    exact ⟨⟨(a, h), mem_toList_iff.2 hget, hprop⟩,
      fun entry hentry => hle entry.1 entry.2 (mem_toList_iff.1 hentry)⟩
  · rintro ⟨⟨entry, hentry, hprop⟩, hle⟩
    exact ⟨⟨entry.1, entry.2, mem_toList_iff.1 hentry, hprop⟩,
      fun a h hget => hle (a, h) (mem_toList_iff.2 hget)⟩

theorem exists_earliest (hget : alarms[a]? = some h) (harmed : h.armed = true) :
    ∃ m, Earliest alarms m := by
  obtain ⟨m, hm⟩ := exists_earliest_of_mem ⟨(a, h), mem_toList_iff.2 hget, harmed⟩
  exact ⟨m, earliest_iff.2 hm⟩

-- The earliest deadline is what the loop computes, unless it is 0.
theorem nearest_eq (hm : m ≠ 0) (hearliest : Earliest alarms m)
    (hdue : ∀ (a : OSAlarm) h, alarms[a]? = some h → h.isDue now = false) :
    alarms.toList.foldl (nearer now) 0 = m := by
  obtain ⟨hmem, hle⟩ := earliest_iff.1 hearliest
  exact foldl_nearer_earliest hm (fun entry hentry => hdue entry.1 entry.2 (mem_toList_iff.1 hentry))
    hle hmem (.inl rfl)

theorem nothing_due {later : Clock} (hsleep : (schedulerPass s later).scheduler = .sleeping timeout)
    (hget : s.alarms[a]? = some h) : h.isDue s.clock.osGetTime = false := by
  by_contra hdue
  have hbatch : (schedulerPass s later).scheduler.batch = [] := by rw [hsleep]; rfl
  have honce : (s.alarms.toList.foldl (collect s.clock.osGetTime) []).filter (·.1 = a) =
      [].filter (·.1 = a) ++ [(a, h.callback)] :=
    collect_once (toList_keys s.alarms) (mem_toList_iff.2 hget) (eq_true_of_ne_false hdue)
  rw [schedulerPass_batch_eq] at hbatch
  rw [hbatch] at honce
  cases honce

theorem pass_sleeping {later : Clock}
    (hsleep : (schedulerPass s later).scheduler = .sleeping timeout) :
    timeout = if s.alarms.toList.foldl (nearer s.clock.osGetTime) 0 = 0 then none
      else some (ticksToNs (s.alarms.toList.foldl (nearer s.clock.osGetTime) 0 - later.osGetTime)) := by
  simp only [schedulerPass] at hsleep
  split at hsleep
  next =>
    cases hsleep
    rfl
  next => cases hsleep

theorem settle_of_not_due (hdue : h.isDue now = false) : h.settle now = h := by
  rw [HostAlarm.settle, if_neg (ne_true_of_eq_false hdue)]

theorem pass_getElem? {later : Clock}
    (hsleep : (schedulerPass s later).scheduler = .sleeping timeout) (a : OSAlarm) :
    (schedulerPass s later).alarms[a]? = s.alarms[a]? := by
  rw [schedulerPass_getElem?]
  cases hget : s.alarms[a]? with
  | none => rfl
  | some h => rw [Option.map_some, settle_of_not_due (nothing_due hsleep hget)]

theorem Earliest.congr (hm : Earliest alarms m) (h : ∀ a : OSAlarm, alarms'[a]? = alarms[a]?) :
    Earliest alarms' m := by
  obtain ⟨⟨a, hr, hget, hprop⟩, hle⟩ := hm
  refine ⟨⟨a, hr, (h a).trans hget, hprop⟩, fun b hr hget => ?_⟩
  exact hle b hr ((h b).symm.trans hget)

theorem toInt_sub_le {x y : Int64} (hlow : -2 ^ 63 ≤ x.toInt - y.toInt) :
    (x - y).toInt ≤ x.toInt - y.toInt := by
  have hx := x.toInt_lt
  have hy := y.le_toInt
  rw [Int64.toInt_sub, Int.bmod_def]
  omega

-- The earliest deadline is not `0` and no less than `-2 ^ 63` away at the second reading.
theorem pass_inTime {later : Clock}
    (hsleep : (schedulerPass s later).scheduler = .sleeping timeout)
    (hzero : ¬Earliest (schedulerPass s later).alarms 0)
    (hlow : ∀ m, Earliest (schedulerPass s later).alarms m →
      -2 ^ 63 ≤ m.toInt - later.osGetTime.toInt) :
    InTime (schedulerPass s later).alarms later later.systemTime timeout := by
  have hsame := pass_getElem? hsleep
  have hdue : ∀ (a : OSAlarm) h, s.alarms[a]? = some h → h.isDue s.clock.osGetTime = false :=
    fun a h hget => nothing_due hsleep hget
  have hne (m : OSTime) (hm : Earliest s.alarms m) : m ≠ 0 := by
    rintro rfl
    exact hzero (hm.congr hsame)
  have htimeout := pass_sleeping hsleep
  cases timeout with
  | none =>
    intro a h hget
    rw [hsame] at hget
    by_contra harmed
    obtain ⟨m, hm⟩ := exists_earliest hget (eq_true_of_ne_false harmed)
    rw [nearest_eq (hne m hm) hm hdue, if_neg (hne m hm)] at htimeout
    cases htimeout
  | some ns =>
    intro a h hget harmed
    rw [hsame] at hget
    obtain ⟨m, hm⟩ := exists_earliest hget harmed
    rw [nearest_eq (hne m hm) hm hdue, if_neg (hne m hm)] at htimeout
    cases htimeout
    have hns := ticksToNs_le (m - later.osGetTime)
    have hsub := toInt_sub_le (hlow m (hm.congr hsame))
    have hle := Int64.le_iff_toInt_le.1 (hm.2 a h hget harmed)
    rw [deadline]
    omega

theorem wake_not_sleeping (s : State) (timeout : Option UInt64) :
    s.wake.scheduler ≠ .sleeping timeout := by
  rw [State.wake]
  split
  next => rintro ⟨⟩
  next hawake => exact hawake timeout

theorem insert_unarmed {b : OSAlarm} {new : HostAlarm}
    (hnew : new.armed = true → ∃ h', alarms[b]? = some h' ∧ h'.armed = true ∧ h'.due = new.due)
    (hget : (alarms.insert b new)[a]? = some h) (harmed : h.armed = true) :
    ∃ h', alarms[a]? = some h' ∧ h'.armed = true ∧ h'.due = h.due := by
  rw [Std.TreeMap.getElem?_insert] at hget
  split at hget
  next heq =>
    obtain rfl := Std.LawfulEqCmp.eq_of_compare heq
    cases hget
    exact hnew harmed
  next => exact ⟨h, hget, harmed, rfl⟩

theorem at_armed {b : OSAlarm} (harmed : (alarms.at b).armed = true) :
    alarms[b]? = some (alarms.at b) := by
  rw [Alarms.at] at harmed ⊢
  cases hget : alarms[b]? with
  | none =>
    rw [hget] at harmed
    cases harmed
  | some h' => rfl

-- A call that leaves the scheduler asleep.
theorem call_armsNothing {op : Op} (hsleep : (call op s).2.scheduler = .sleeping timeout) :
    ArmsNothing s.alarms (call op s).2.alarms := by
  have he := call_effect op s
  generalize (call op s).2 = s' at he hsleep ⊢
  intro a h hget harmed
  cases he with
  | unchanged => exact ⟨h, hget, harmed, rfl⟩
  | create => exact insert_unarmed (fun hzero => absurd hzero Bool.false_ne_true) hget harmed
  | set | setPeriodic | cancel | cancelUnknown | cancelAll =>
    exact absurd hsleep (wake_not_sleeping _ _)
  | setTag | setUserData =>
    refine insert_unarmed (fun harmed' => ?_) hget harmed
    exact ⟨_, at_armed harmed', harmed', rfl⟩

theorem call_clock (s : State) (op : Op) : (call op s).2.clock = s.clock := by
  have he := call_effect op s
  generalize (call op s).2 = s' at he ⊢
  cases he with
  | unchanged | create | setTag | setUserData => rfl
  | set | setPeriodic | cancel | cancelUnknown | cancelAll => rw [wake_clock]

-- While the same sleep goes on, no deadline may come nearer than it was.
theorem InTime.later (ht : InTime alarms clock since timeout)
    (hlater : ∀ (a : OSAlarm) h, alarms'[a]? = some h → h.armed = true →
      ∃ h', alarms[a]? = some h' ∧ h'.armed = true ∧ deadline clock h'.due ≤ deadline clock' h.due) :
    InTime alarms' clock' since timeout := by
  cases timeout with
  | none =>
    intro a h hget
    by_contra harmed
    obtain ⟨h', hget', harmed', -⟩ := hlater a h hget (eq_true_of_ne_false harmed)
    rw [ht a h' hget'] at harmed'
    cases harmed'
  | some ns =>
    intro a h hget harmed
    obtain ⟨h', hget', harmed', hle⟩ := hlater a h hget harmed
    have hbound := ht a h' hget' harmed'
    omega

theorem InTime.of_armsNothing (ht : InTime alarms clock since timeout)
    (hnothing : ArmsNothing alarms alarms') : InTime alarms' clock since timeout := by
  refine ht.later fun a h hget harmed => ?_
  obtain ⟨h', hget', harmed', hdue⟩ := hnothing a h hget harmed
  exact ⟨h', hget', harmed', Int.le_of_eq (by rw [hdue])⟩

theorem deadline_tick {time due : OSTime} (hle : clock.systemTime ≤ time) :
    deadline clock due ≤ deadline { clock with systemTime := time } due := by
  have h1 := Int64.le_iff_toInt_le.1 hle
  have h2 := clock.systemTime.le_toInt
  have h3 := time.toInt_lt
  have h4 := clock.baseTime.le_toInt
  have h5 := clock.baseTime.toInt_lt
  simp only [deadline, Clock.osGetTime, Int64.toInt_add]
  rw [Int.bmod_def, Int.bmod_def]
  omega

theorem deadline_setTime {time due : OSTime} (hle : time ≤ clock.osGetTime) :
    deadline clock due ≤ deadline (clock.osSetAbsoluteSystemTime time) due := by
  have hle := Int64.le_iff_toInt_le.1 hle
  have hnow : (clock.osSetAbsoluteSystemTime time).osGetTime = time := by
    rw [Clock.osGetTime, Clock.osSetAbsoluteSystemTime]
    exact Int64.sub_add_cancel _ _
  rw [deadline, deadline, hnow]
  change _ ≤ clock.systemTime.toInt + _
  omega

namespace Threads

variable {τ : Type} [DecidableEq τ] {s s' : System τ} {st : State} {t u v : τ} {l : Loop}
  {p : Pass} {op : Op} {e : Event τ} {timeout : Option UInt64} {since : OSTime}

def Event.asleepSince (time since : OSTime) : Event τ → OSTime
  | .turn _ _ (.event .pass) => time
  | _ => since

def OnTime (s : System τ) (since : OSTime) : Prop :=
  ∀ u timeout, s.loop u = .sleeping timeout → InTime s.alarms s.clock since timeout

-- A pass that collects nothing finds the earliest deadline other than 0 and its distance from the
-- second reading above -2^63; the clock is not set ahead while a scheduler sleeps on an alarm.
def KeepsTime (s : System τ) : Event τ → Prop
  | .turn u _ (.event .pass) => ∀ p, s.loop u = .scanning p → p.due = [] →
      ¬Earliest s.alarms 0 ∧ ∀ m, Earliest s.alarms m → -2 ^ 63 ≤ m.toInt - s.now.toInt
  | .setTime time => ∀ u timeout, s.loop u = .sleeping timeout → ∀ (a : OSAlarm) h,
      s.alarms[a]? = some h → h.armed = true → time ≤ s.now
  | _ => True

omit [DecidableEq τ] in
theorem wake_not_asleep : s.wake.loop u ≠ .sleeping timeout := by
  change (s.loop u).wake ≠ _
  cases s.loop u <;> exact nofun

omit [DecidableEq τ] in
theorem call_asleep (hsleep : (s.call op).loop u = .sleeping timeout) :
    op.wakes = false ∧ s.loop u = .sleeping timeout := by
  rw [System.call] at hsleep
  split at hsleep
  next => exact absurd hsleep wake_not_asleep
  next hwakes => exact ⟨eq_false_of_ne_true hwakes, hsleep⟩

omit [DecidableEq τ] in
theorem call_alarms : (s.call op).alarms = (Alarm.call op s.state).2.alarms := by
  rw [System.call]
  split <;> rfl

omit [DecidableEq τ] in
theorem call_nothing_armed (hsleep : (s.call op).loop u = .sleeping timeout) :
    ArmsNothing s.alarms (s.call op).alarms := by
  obtain ⟨hwakes, -⟩ := call_asleep hsleep
  let asleep : State := { s.state with scheduler := .sleeping timeout }
  have halarms : asleep.alarms = s.state.alarms := rfl
  have hclock : asleep.clock = s.state.clock := rfl
  have hcall := (call_congr op halarms hclock).2
  rw [hwakes, if_neg Bool.false_ne_true, ← call_alarms] at hcall
  have hstill : (Alarm.call op asleep).2.scheduler = .sleeping timeout := by rw [hcall]
  have hnothing := call_armsNothing hstill
  rwa [hcall] at hnothing

omit [DecidableEq τ] in
theorem onTime_awake (h : ∀ u timeout, s.loop u ≠ .sleeping timeout) : OnTime s since :=
  fun u timeout hsleep => absurd hsleep (h u timeout)

omit [DecidableEq τ] in
theorem OnTime.asleep (ht : OnTime s since) (halarms : s'.alarms = s.alarms)
    (hclock : s'.clock = s.clock)
    (hloop : ∀ u timeout, s'.loop u = .sleeping timeout → s.loop u = .sleeping timeout) :
    OnTime s' since := by
  intro u timeout hsleep
  rw [halarms, hclock]
  exact ht u timeout (hloop u timeout hsleep)

theorem OnTime.turnTo (ht : OnTime s since) (hl : ∀ timeout, l ≠ .sleeping timeout) :
    OnTime (s.turnTo u l) since := by
  refine ht.asleep rfl rfl fun v timeout hsleep => ?_
  rcases turnTo_cases (Q := (· = .sleeping timeout)) v hsleep with ⟨-, hq⟩ | ⟨-, hq⟩
  · exact absurd hq (hl timeout)
  · exact hq

-- While one scheduler runs, no other sleeps.
theorem onTime_single (hi : Inv s) (hu : (s.loop u).Running)
    (hloop : s'.loop = (s.turnTo u l).loop)
    (hnow : ∀ timeout, l = .sleeping timeout → InTime s'.alarms s'.clock since timeout) :
    OnTime s' since := by
  intro v timeout hsleep
  rw [hloop] at hsleep
  rcases turnTo_cases (Q := (· = .sleeping timeout)) v hsleep with ⟨-, hq⟩ | ⟨hne, hq⟩
  · exact hnow timeout hq
  · exact absurd (hi.unique hu (by rw [hq]; trivial)) hne

omit [DecidableEq τ] in
theorem OnTime.call (ht : OnTime s since) : OnTime (s.call op) since := by
  intro u timeout hsleep
  rw [call_clock]
  exact (ht u timeout (call_asleep hsleep).2).of_armsNothing (call_nothing_armed hsleep)

omit [DecidableEq τ] in
theorem sleep_inTime (hi : Inv s) (hv : Shows s st) (hl : s.loop u = .scanning p)
    (hrest : p.rest = []) (hdue : p.due = [])
    (hkeeps : ¬Earliest s.alarms 0 ∧ ∀ m, Earliest s.alarms m → -2 ^ 63 ≤ m.toInt - s.now.toInt) :
    InTime s.alarms s.clock s.clock.systemTime
      (if p.nearest = 0 then none else some (ticksToNs (p.nearest - s.now))) := by
  obtain ⟨-, done, rest, hs, hdues⟩ := hv.running hi hl trivial
  have hover := hs.over hrest hdues
  have hsleep : (schedulerPass st s.clock).scheduler =
      .sleeping (if p.nearest = 0 then none else some (ticksToNs (p.nearest - s.now))) := by
    rw [hover, hdue]
    rfl
  have hpass := pass_inTime hsleep
  rw [hover] at hpass
  exact hpass hkeeps.1 hkeeps.2

theorem OnTime.step (hi : Inv s) (hv : Shows s st) (hs : Step s e s') (hkeeps : KeepsTime s e)
    (ht : OnTime s since) :
    OnTime s' (e.asleepSince s'.clock.systemTime since) := by
  cases hs with
  | null | nullWait => exact ht
  | begin | inited | uninited | nothing | reset | mark | lock | wait | started | unstarted | refused
  | launched | joined | unjoined => exact ht.asleep rfl rfl fun _ _ => id
  | body => exact ht.call.asleep rfl rfl fun _ _ => id
  | stop => exact onTime_awake fun _ _ => wake_not_asleep
  | clear =>
    refine fun u timeout hsleep => (ht u timeout hsleep).later fun a h hget => ?_
    cases hget.symm.trans Std.TreeMap.getElem?_emptyc
  | created => exact ht.turnTo nofun
  | enter | exit | read | passOver | collect | skip | fire | finish | resume | timeout =>
    exact ht.turnTo nofun
  | write hl => exact onTime_single hi (by rw [hl]; trivial) rfl nofun
  | invoke hl => exact onTime_single hi (by rw [hl]; trivial) rfl nofun
  | sleep hl hrest hdue =>
    refine onTime_single hi (by rw [hl]; trivial) rfl ?_
    rintro timeout ⟨⟩
    exact sleep_inTime (s := s) hi hv hl hrest hdue (hkeeps _ hl hdue)
  | tick hle =>
    intro u timeout hsleep
    exact (ht u timeout hsleep).later fun a h hget harmed => ⟨h, hget, harmed, deadline_tick hle⟩
  | setTime time =>
    intro u timeout hsleep
    refine (ht u timeout hsleep).later fun a h hget harmed => ⟨h, hget, harmed, ?_⟩
    exact deadline_setTime (hkeeps u timeout hsleep a h hget harmed)

end Threads

end CoreinitNx.Alarm
