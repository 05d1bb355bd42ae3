import CoreinitNx.Alarm.Armed
import CoreinitNx.Library.Slots

namespace CoreinitNx.Alarm

open Slots

section Atomic

variable {s s' : State} {e : Event} {es : List Event} {a : OSAlarm} {cb : OSAlarmCallback}
  {due interval : OSTime}

def Event.firing (a : OSAlarm) : Event → Option OSAlarmCallback
  | .fire b cb => if b = a then some cb else none
  | _ => none

-- The callbacks for `a` that the pass under way has still to start.
def owed (a : OSAlarm) (s : State) : List OSAlarmCallback :=
  (collections a s).filterMap fun entry => if entry.2 = 0 then none else some entry.2

def Invoking (s : State) : Prop :=
  match s.scheduler with
  | .invoking _ => True
  | .inCallback _ _ => True
  | _ => False

theorem owed_congr (h : s'.scheduler.batch = s.scheduler.batch) : owed a s' = owed a s := by
  rw [owed, owed, collections, collections, h]

theorem wake_of_invoking (hi : Invoking s) : s.wake.scheduler = s.scheduler := by
  rw [State.wake]
  split
  next hs =>
    rw [Invoking, hs] at hi
    exact hi.elim
  next => rfl

-- Until the batch is through, each step hands on what is owed, less what it starts.
theorem Step.owed (hs : Step s e s') (hi : Invoking s) (hresume : e ≠ .resume) :
    Invoking s' ∧ e ≠ .pass ∧ Alarm.owed a s = (e.firing a).toList ++ Alarm.owed a s' := by
  have hsame {t : State} (ht : t.scheduler = s.scheduler) :
      Invoking t ∧ Alarm.owed a s = Alarm.owed a t := by
    refine ⟨?_, (owed_congr (congrArg Scheduler.batch ht)).symm⟩
    rw [Invoking, ht]
    exact hi
  have hnot {sched : Scheduler} (heq : s.scheduler = sched)
      (hidle : ¬Invoking { s with scheduler := sched }) : False :=
    hidle (heq ▸ hi)
  cases hs with
  | call op =>
    rcases call_scheduler s op with heq | heq
    · exact ⟨(hsame heq).1, (by rintro ⟨⟩), (hsame heq).2⟩
    · have heq := heq.trans (wake_of_invoking hi)
      exact ⟨(hsame heq).1, (by rintro ⟨⟩), (hsame heq).2⟩
  | startThread heq => exact (hnot heq id).elim
  | pass heq => exact (hnot heq id).elim
  | skip heq =>
    refine ⟨trivial, (by rintro ⟨⟩), ?_⟩
    simp only [Alarm.owed, collections, heq, Scheduler.batch]
    rw [List.filter_cons]
    split <;> rfl
  | @fire b cb due heq hcb =>
    refine ⟨trivial, (by rintro ⟨⟩), ?_⟩
    simp only [Alarm.owed, collections, heq, Scheduler.batch, Event.firing]
    by_cases hba : b = a
    · rw [List.filter_cons_of_pos (by simpa using hba)]
      simp [hba, hcb]
    · rw [List.filter_cons_of_neg (by simpa using hba)]
      simp [hba]
  | finish heq =>
    refine ⟨trivial, (by rintro ⟨⟩), ?_⟩
    simp only [Alarm.owed, collections, heq, Scheduler.batch]
    rfl
  | resume => exact absurd rfl hresume
  | timeout heq => exact (hnot heq id).elim
  | tick | setTime => exact ⟨hi, (by rintro ⟨⟩), rfl⟩
  | requestStop =>
    have heq : ({ s with stop := true } : State).wake.scheduler = s.scheduler :=
      wake_of_invoking (s := { s with stop := true }) hi
    exact ⟨(hsame heq).1, (by rintro ⟨⟩), (hsame heq).2⟩
  | exit heq => exact (hnot heq id).elim
  | shutdown heq =>
    rcases heq with heq | heq
    · exact (hnot heq id).elim
    · exact (hnot heq id).elim

theorem invoking_of_batch (h : s.scheduler.batch ≠ []) : Invoking s := by
  rw [Invoking]
  split
  next => trivial
  next => trivial
  next hinvoking hcallback =>
    refine h ?_
    rw [Scheduler.batch.eq_def]
    split
    next heq => exact (hinvoking _ heq).elim
    next heq => exact (hcallback _ _ heq).elim
    next => rfl

theorem owed_of_collections (hcb : cb ≠ 0) (h : collections a s = [(a, cb)]) :
    Invoking s ∧ owed a s = [cb] := by
  have hbatch : s.scheduler.batch ≠ [] := by
    intro hnil
    rw [collections, hnil] at h
    cases h
  refine ⟨invoking_of_batch hbatch, ?_⟩
  rw [owed, h]
  simp [hcb]

-- The sum is the one of the exact integers.
def SumExact (x y : OSTime) : Prop := (x + y).toInt = x.toInt + y.toInt

def nextDue (first : Int) (interval : OSTime) (readings : List OSTime) : Int :=
  match readings.getLast? with
  | none => first
  | some reading => reading.toInt + interval.toInt

structure Spaced (first : Int) (interval : OSTime) (readings : List OSTime) : Prop where
  kth : ∀ (k : Nat) (x : OSTime), readings[k]? = some x → first + k * interval.toInt ≤ x.toInt
  apart : ∀ (k : Nat) (x y : OSTime), readings[k]? = some x → readings[k + 1]? = some y →
    x.toInt + interval.toInt ≤ y.toInt

theorem Step.pass_eq (hs : Step s .pass s') : ∃ later, s' = schedulerPass s later := by
  cases hs with
  | pass => exact ⟨_, rfl⟩

theorem nextDue_snoc (first : Int) (x : OSTime) (readings : List OSTime) :
    nextDue first interval (readings ++ [x]) = x.toInt + interval.toInt := by
  rw [nextDue, List.getLast?_concat]

theorem Spaced.nil (first : Int) (interval : OSTime) : Spaced first interval [] :=
  ⟨nofun, nofun⟩

-- The bound the next reading has to keep, from the bound the last one has kept.
theorem Spaced.nextDue_ge {first : Int} {readings : List OSTime}
    (h : Spaced first interval readings) :
    first + readings.length * interval.toInt ≤ nextDue first interval readings := by
  cases readings using List.reverseRecOn with
  | nil => simp [nextDue]
  | append_singleton readings x =>
    have hlast := h.kth readings.length x List.getElem?_concat_length
    rw [nextDue_snoc, List.length_append, List.length_singleton, Int.natCast_add, Int.add_mul,
      Int.natCast_one, Int.one_mul]
    omega

theorem nextDue_of_last {first : Int} {readings : List OSTime} {x : OSTime} {k : Nat}
    (hx : readings[k]? = some x) (hk : k + 1 = readings.length) :
    nextDue first interval readings = x.toInt + interval.toInt := by
  rw [nextDue, List.getLast?_eq_getElem?, ← hk, Nat.add_sub_cancel, hx]

theorem Spaced.snoc {first : Int} {readings : List OSTime} {x : OSTime}
    (h : Spaced first interval readings) (hx : nextDue first interval readings ≤ x.toInt) :
    Spaced first interval (readings ++ [x]) := by
  constructor
  · intro k y hy
    rcases concat_eq_some_iff.1 hy with hold | ⟨rfl, rfl⟩
    · exact h.kth k y hold
    · exact Int.le_trans h.nextDue_ge hx
  · intro k y z hy hz
    have hlt : k < readings.length := by
      have hbound := (List.getElem?_eq_some_iff.1 hz).1
      rw [List.length_append, List.length_singleton] at hbound
      omega
    rw [List.getElem?_append_left hlt] at hy
    rcases concat_eq_some_iff.1 hz with hold | ⟨hk, rfl⟩
    · exact h.apart k y z hy hold
    · rw [← nextDue_of_last hy hk]
      exact hx

theorem step_arms {op : Op} {time : OSTime} (hs : Step s (.call op (.ret 1)) s')
    (hop : call op s = arm s a time interval cb) :
    ArmedFor s'.alarms a (s.clock.osGetTime + time) interval cb := by
  generalize he : Event.call op (.ret 1) = e at hs
  cases hs with
  | call op' =>
    obtain ⟨rfl, hreply⟩ := Event.call.inj he
    rw [hop] at hreply ⊢
    exact arm_armedFor (ne_zero_of_arm hreply.symm)
  | startThread | pass | skip | fire | finish | resume | timeout | tick | setTime | requestStop
  | exit | shutdown => cases he

end Atomic

end CoreinitNx.Alarm
