import CoreinitNx.Alarm.Cancel

namespace CoreinitNx.Alarm

variable {s s' : State} {e : Event} {es : List Event} {a b : OSAlarm} {cb cb' : OSAlarmCallback}
  {alarms : Alarms} {h : HostAlarm} {now due interval : OSTime}

-- What ends an arming of `a` before its time.
def Supersedes (s : State) (a : OSAlarm) : Event → Prop
  | .call (.create b) _ => b = a
  | .call (.set b _ _) _ => b = a
  | .call (.setPeriodic b _ _ _) _ => b = a
  | .call (.cancel b) _ => b = a
  | .call (.cancelAll group) _ => ∃ h, s.alarms[a]? = some h ∧ h.group = group
  | .shutdown => True
  | _ => False

structure HostAlarm.ArmedFor (h : HostAlarm) (due interval : OSTime) (cb : OSAlarmCallback) :
    Prop where
  armed : h.armed = true
  due_eq : h.due = due
  interval_eq : h.interval = interval
  callback_eq : h.callback = cb

def ArmedFor (alarms : Alarms) (a : OSAlarm) (due interval : OSTime) (cb : OSAlarmCallback) :
    Prop :=
  ∃ h, alarms[a]? = some h ∧ h.ArmedFor due interval cb

theorem ArmedFor.insert (ha : ArmedFor alarms a due interval cb)
    (hb : b = a → h.ArmedFor due interval cb) :
    ArmedFor (alarms.insert b h) a due interval cb := by
  obtain ⟨h', hget, hfor⟩ := ha
  by_cases hba : b = a
  · subst hba
    exact ⟨h, Std.TreeMap.getElem?_insert_self, hb rfl⟩
  · refine ⟨h', ?_, hfor⟩
    rw [Std.TreeMap.getElem?_insert, if_neg, hget]
    exact fun heq => hba (Std.LawfulEqCmp.eq_of_compare heq)

theorem ArmedFor.map {f : OSAlarm → HostAlarm → HostAlarm} {due' interval' : OSTime}
    (ha : ArmedFor alarms a due interval cb)
    (hf : ∀ h, alarms[a]? = some h → h.ArmedFor due interval cb →
      (f a h).ArmedFor due' interval' cb') :
    ArmedFor (alarms.map f) a due' interval' cb' := by
  obtain ⟨h, hget, hfor⟩ := ha
  refine ⟨f a h, ?_, hf h hget hfor⟩
  rw [Std.TreeMap.getElem?_map, hget]
  rfl

theorem ArmedFor.at (ha : ArmedFor alarms a due interval cb) :
    (alarms.at a).ArmedFor due interval cb := by
  obtain ⟨h, hget, hfor⟩ := ha
  rw [Alarms.at, hget]
  exact hfor

theorem arm_armedFor {time : OSTime} (ha : a ≠ 0) :
    ArmedFor (arm s a time interval cb).2.alarms a (s.clock.osGetTime + time) interval cb := by
  rw [arm, if_neg ha, wake_alarms]
  exact ⟨_, Std.TreeMap.getElem?_insert_self, rfl, rfl, rfl, rfl⟩

theorem ne_zero_of_arm {time : OSTime} (h : (arm s a time interval cb).1 = .ret 1) : a ≠ 0 := by
  rintro rfl
  cases h

theorem call_keeps {op : Op} {reply : Reply} (hsup : ¬Supersedes s a (.call op reply))
    (ha : ArmedFor s.alarms a due interval cb) :
    ArmedFor (call op s).2.alarms a due interval cb := by
  have he := call_effect op s
  generalize (call op s).2 = s' at he ⊢
  cases he with
  | unchanged => exact ha
  | create => exact ha.insert fun heq => absurd heq hsup
  | set | setPeriodic | cancel =>
    rw [wake_alarms]
    exact ha.insert fun heq => absurd heq hsup
  | cancelUnknown => rwa [wake_alarms]
  | cancelAll group =>
    rw [wake_alarms]
    refine ha.map fun h hget hfor => ?_
    rw [if_neg fun hgroup => hsup ⟨h, hget, hgroup⟩]
    exact hfor
  | setTag | setUserData =>
    refine ha.insert ?_
    rintro rfl
    exact ⟨ha.at.armed, ha.at.due_eq, ha.at.interval_eq, ha.at.callback_eq⟩

theorem HostAlarm.ArmedFor.isDue (hfor : h.ArmedFor due interval cb) :
    h.isDue now = decide (due ≤ now) := by
  rw [HostAlarm.isDue, hfor.armed, hfor.due_eq, Bool.true_and]

theorem HostAlarm.ArmedFor.settle_early (hfor : h.ArmedFor due interval cb) (hnow : ¬due ≤ now) :
    (h.settle now).ArmedFor due interval cb := by
  rw [HostAlarm.settle, hfor.isDue, if_neg (fun hdue => hnow (of_decide_eq_true hdue))]
  exact hfor

theorem HostAlarm.ArmedFor.settle_again (hfor : h.ArmedFor due interval cb) (hnow : due ≤ now)
    (hi : interval > 0) : (h.settle now).ArmedFor (now + interval) interval cb := by
  rw [HostAlarm.settle, hfor.isDue, if_pos (decide_eq_true hnow), HostAlarm.advance,
    hfor.interval_eq, if_pos hi]
  exact ⟨hfor.armed, rfl, rfl, hfor.callback_eq⟩

theorem HostAlarm.ArmedFor.settle_once (hfor : h.ArmedFor due 0 cb) (hnow : due ≤ now) :
    (h.settle now).armed = false := by
  rw [HostAlarm.settle, hfor.isDue, if_pos (decide_eq_true hnow), HostAlarm.advance,
    hfor.interval_eq, if_neg (by decide)]

theorem ArmedFor.pass {later : Clock} {due' interval' : OSTime}
    (ha : ArmedFor s.alarms a due interval cb)
    (hsettle : ∀ {h : HostAlarm}, h.ArmedFor due interval cb →
      (h.settle s.clock.osGetTime).ArmedFor due' interval' cb) :
    ArmedFor (schedulerPass s later).alarms a due' interval' cb := by
  obtain ⟨h, hget, hfor⟩ := ha
  refine ⟨_, ?_, hsettle hfor⟩
  rw [schedulerPass_getElem?, hget]
  rfl

theorem Step.keeps (hs : Step s e s') (hsup : ¬Supersedes s a e)
    (hearly : e = .pass → ¬due ≤ s.clock.osGetTime) (ha : ArmedFor s.alarms a due interval cb) :
    ArmedFor s'.alarms a due interval cb := by
  cases hs with
  | call op => exact call_keeps hsup ha
  | startThread | skip | fire | finish | resume | timeout | tick | setTime | exit => exact ha
  | pass => exact ha.pass fun hfor => hfor.settle_early (hearly rfl)
  | requestStop =>
    rw [wake_alarms]
    exact ha
  | shutdown => exact absurd trivial hsup

-- The entries for `a` in what a pass has collected.
def collections (a : OSAlarm) (s : State) : List (OSAlarm × OSAlarmCallback) :=
  s.scheduler.batch.filter fun entry => entry.1 = a

theorem collect_none {entries : List (OSAlarm × HostAlarm)}
    {batch : List (OSAlarm × OSAlarmCallback)}
    (hnone : ∀ h, (a, h) ∈ entries → h.isDue now = false) :
    (entries.foldl (collect now) batch).filter (fun entry => entry.1 = a) =
      batch.filter fun entry => entry.1 = a := by
  induction entries generalizing batch with
  | nil => rfl
  | cons entry entries ih =>
    rw [List.foldl_cons, ih fun h hmem => hnone h (List.mem_cons_of_mem _ hmem), collect]
    split
    next hdue =>
      have hne : entry.1 ≠ a := by
        rintro rfl
        rw [hnone entry.2 List.mem_cons_self] at hdue
        cases hdue
      rw [List.filter_append, List.filter_cons_of_neg (by simpa using hne), List.filter_nil,
        List.append_nil]
    next => rfl

theorem collect_once {entries : List (OSAlarm × HostAlarm)}
    {batch : List (OSAlarm × OSAlarmCallback)}
    (hkeys : entries.Pairwise fun x y => x.1 ≠ y.1) (hmem : (a, h) ∈ entries)
    (hdue : h.isDue now = true) :
    (entries.foldl (collect now) batch).filter (fun entry => entry.1 = a) =
      batch.filter (fun entry => entry.1 = a) ++ [(a, h.callback)] := by
  induction entries generalizing batch with
  | nil => cases hmem
  | cons entry entries ih =>
    obtain ⟨hhead, htail⟩ := List.pairwise_cons.1 hkeys
    rw [List.foldl_cons]
    rcases List.mem_cons.1 hmem with rfl | hrest
    · rw [collect_none fun h' hmem' => absurd rfl (hhead (a, h') hmem'), collect, if_pos hdue,
        List.filter_append, List.filter_cons_of_pos (by simp), List.filter_nil]
    · have hne : entry.1 ≠ a := hhead _ hrest
      rw [ih htail hrest, collect]
      split
      next =>
        rw [List.filter_append, List.filter_cons_of_neg (by simpa using hne), List.filter_nil,
          List.append_nil]
      next => rfl

theorem schedulerPass_batch_eq {later : Clock} :
    (schedulerPass s later).scheduler.batch =
      s.alarms.toList.foldl (collect s.clock.osGetTime) [] := by
  simp only [schedulerPass]
  split
  next hempty => exact (List.isEmpty_iff.1 hempty).symm
  next => rfl

theorem collections_pass_none {later : Clock}
    (hnone : ∀ h, s.alarms[a]? = some h → h.isDue s.clock.osGetTime = false) :
    collections a (schedulerPass s later) = [] := by
  rw [collections, schedulerPass_batch_eq, collect_none]
  · rfl
  · intro h hmem
    exact hnone h (Std.TreeMap.mem_toList_iff_getElem?_eq_some.1 hmem)

theorem ArmedFor.collections_early {later : Clock} (ha : ArmedFor s.alarms a due interval cb)
    (hnow : ¬due ≤ s.clock.osGetTime) : collections a (schedulerPass s later) = [] := by
  obtain ⟨h, hget, hfor⟩ := ha
  refine collections_pass_none fun h' hget' => ?_
  cases hget.symm.trans hget'
  rw [hfor.isDue]
  exact decide_eq_false hnow

theorem ArmedFor.collections_due {later : Clock} (ha : ArmedFor s.alarms a due interval cb)
    (hnow : due ≤ s.clock.osGetTime) : collections a (schedulerPass s later) = [(a, cb)] := by
  obtain ⟨h, hget, hfor⟩ := ha
  have hdue : h.isDue s.clock.osGetTime = true := by
    rw [hfor.isDue]
    exact decide_eq_true hnow
  rw [collections, schedulerPass_batch_eq, collect_once (toList_keys _)
    (Std.TreeMap.mem_toList_iff_getElem?_eq_some.2 hget) hdue, hfor.callback_eq]
  rfl

theorem Disarmed.collections {later : Clock} (hd : Disarmed s.alarms a) :
    Alarm.collections a (schedulerPass s later) = [] :=
  collections_pass_none fun h hget => isDue_of_disarmed (hd h hget)

theorem schedulerPass_disarmed {later : Clock} (ha : ArmedFor s.alarms a due 0 cb)
    (hnow : due ≤ s.clock.osGetTime) : Disarmed (schedulerPass s later).alarms a := by
  obtain ⟨h, hget, hfor⟩ := ha
  intro h' hget'
  rw [schedulerPass_getElem?, hget] at hget'
  cases hget'
  exact hfor.settle_once hnow

theorem schedulerPass_armed_again {later : Clock} (ha : ArmedFor s.alarms a due interval cb)
    (hnow : due ≤ s.clock.osGetTime) (hi : interval > 0) :
    ArmedFor (schedulerPass s later).alarms a (s.clock.osGetTime + interval) interval cb :=
  ha.pass fun hfor => hfor.settle_again hnow hi

end CoreinitNx.Alarm
