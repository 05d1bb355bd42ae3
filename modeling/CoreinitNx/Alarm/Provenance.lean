import CoreinitNx.Alarm.Timers

namespace CoreinitNx.Alarm

def Turn.Arms (a : OSAlarm) (now : OSTime) (arming : Arming) : Turn → Prop
  | .event (.call (.set b time callback) _) =>
    b = a ∧ b ≠ 0 ∧ arming = ⟨now + time, 0, callback⟩
  | .event (.call (.setPeriodic b start interval callback) _) =>
    b = a ∧ b ≠ 0 ∧ arming = ⟨now + start, interval, callback⟩
  | _ => False

-- What ends an arming of `a`, then in `group`, before its time.
def Turn.Ends (a : OSAlarm) (group : UInt32) : Turn → Prop
  | .event (.call (.create b) _) => b = a
  | .event (.call (.set b _ _) _) => b = a
  | .event (.call (.setPeriodic b _ _ _) _) => b = a
  | .event (.call (.cancel b) _) => b = a
  | .event (.call (.cancelAll group') _) => group = group'
  | .event .shutdown => True
  | _ => False

-- The call that armed `a` so, which nothing has ended since. A periodic alarm is due again from
-- the last pass that found it due; any other has not been found due.
structure ArmedBy (a : OSAlarm) (log : List (OSTime × Turn)) (arming : Arming)
    (before : List (OSTime × Turn)) (x : OSTime × Turn) (since : List (OSTime × Turn))
    (first : Arming) : Prop where
  split : log = before ++ x :: since
  arms : x.2.Arms a x.1 first
  interval : arming.interval = first.interval
  callback : arming.callback = first.callback
  stands : ∀ l y l', since = l ++ y :: l' → ¬y.2.Ends a (timer a (before ++ x :: l)).group
  due : arming.due = first.due ∨
    first.interval > 0 ∧ ∃ now, (now, .event .pass) ∈ since ∧ arming.due = now + first.interval
  once : ¬first.interval > 0 → ∀ now, (now, .event .pass) ∈ since → ¬first.due ≤ now

variable {a : OSAlarm} {log before since : List (OSTime × Turn)} {x y : OSTime × Turn}
  {arming first : Arming} {callback : OSAlarmCallback} {now : OSTime} {turn : Turn}

theorem edit_of_ne {b : OSAlarm} (t : Timer) (f : Timer → Timer) (hba : b ≠ a) :
    t.edit a b f = t := if_neg fun hand => hba hand.1

theorem edit_self (t : Timer) (f : Timer → Timer) (ha : a ≠ 0) : t.edit a a f = f t :=
  if_pos ⟨rfl, ha⟩

-- What a turn leaves armed it has armed, or found armed.
inductive Armed (a : OSAlarm) (t : Timer) (arming : Arming) (x : OSTime × Turn) : Prop
  | now : x.2.Arms a x.1 arming → Armed a t arming x
  | again {old : Arming} : x.2 = .event .pass → t.arming = some old → old.due ≤ x.1 →
      old.interval > 0 → arming = { old with due := x.1 + old.interval } → Armed a t arming x
  | still : t.arming = some arming → ¬x.2.Ends a t.group →
      (x.2 = .event .pass → ¬arming.due ≤ x.1) → Armed a t arming x

theorem armed_cases {t : Timer} (ha : a ≠ 0) (h : (t.after a x).arming = some arming) :
    Armed a t arming x := by
  obtain ⟨now, turn⟩ := x
  cases turn with
  | wait => exact .still h id (by rintro ⟨⟩)
  | event e =>
    cases e with
    | call op reply =>
      rw [Timer.after] at h
      cases op with
      | create b | cancel b =>
        rw [Timer.call] at h
        by_cases hba : b = a
        · rw [hba, edit_self _ _ ha] at h
          cases h
        · rw [edit_of_ne _ _ hba] at h
          exact .still h hba (by rintro ⟨⟩)
      | set b time callback | setPeriodic b start interval callback =>
        rw [Timer.call] at h
        by_cases hba : b = a
        · subst hba
          rw [edit_self _ _ ha] at h
          exact .now ⟨rfl, ha, (Option.some.inj h).symm⟩
        · rw [edit_of_ne _ _ hba] at h
          exact .still h hba (by rintro ⟨⟩)
      | cancelAll group =>
        rw [Timer.call] at h
        split at h
        next => cases h
        next hgroup => exact .still h hgroup (by rintro ⟨⟩)
      | setTag b group | setUserData b data =>
        rw [Timer.call, Timer.edit, apply_ite Timer.arming, ite_self] at h
        exact .still h id (by rintro ⟨⟩)
      | getUserData b => exact .still h id (by rintro ⟨⟩)
    | pass =>
      rw [Timer.after, Timer.pass] at h
      split at h
      next old hold =>
        split at h
        next hdue =>
          rw [Timer.again] at h
          split at h
          next hi => exact .again rfl hold hdue hi (Option.some.inj h).symm
          next => cases h
        next hearly =>
          have heq : arming = old := Option.some.inj (h.symm.trans hold)
          exact .still h id fun _ hle => hearly (heq ▸ hle)
      next hnone => exact absurd (h.symm.trans hnone) (by rintro ⟨⟩)
    | skip b | fire b callback =>
      rw [Timer.after, apply_ite Timer.arming, ite_self] at h
      exact .still h id (by rintro ⟨⟩)
    | shutdown => cases h
    | startThread | finish | resume | timeout | tick | setTime | requestStop | exit =>
      exact .still h id (by rintro ⟨⟩)

-- Appending a turn that does not end the arming.
theorem stands_concat
    (h : ∀ l y l', since = l ++ y :: l' → ¬y.2.Ends a (timer a (before ++ x :: l)).group)
    (hy : ¬y.2.Ends a (timer a (before ++ x :: since)).group) :
    ∀ l z l', since ++ [y] = l ++ z :: l' →
      ¬z.2.Ends a (timer a (before ++ x :: l)).group := by
  intro l z l' hsplit
  rcases List.eq_nil_or_concat l' with rfl | ⟨m, w, rfl⟩
  · obtain ⟨rfl, hz⟩ := List.append_inj' hsplit rfl
    cases hz
    exact hy
  · rw [List.concat_eq_append, ← List.cons_append, ← List.append_assoc] at hsplit
    obtain ⟨hsince, -⟩ := List.append_inj' hsplit rfl
    exact h l z m hsince

theorem armed_by (ha : a ≠ 0) (h : (timer a log).arming = some arming) :
    ∃ before x since first, ArmedBy a log arming before x since first := by
  induction log using List.reverseRecOn generalizing arming with
  | nil => cases h
  | append_singleton log y ih =>
    rw [timer_concat] at h
    cases armed_cases ha h with
    | now harms =>
      exact ⟨log, y, [], arming, rfl, harms, rfl, rfl, fun l _ _ hnil => by simp at hnil, .inl rfl,
        fun _ _ hmem => nomatch hmem⟩
    | @again old hpass hold hdue hi heq =>
      obtain ⟨before, x, since, first, hby⟩ := ih hold
      have hi' : first.interval > 0 := hby.interval ▸ hi
      have hends : ¬y.2.Ends a (timer a (before ++ x :: since)).group := by
        rw [hpass]
        exact id
      refine ⟨before, x, since ++ [y], first, ?_, hby.arms, ?_, ?_, stands_concat hby.stands hends,
        .inr ⟨hi', y.1, ?_, ?_⟩, fun hnot => absurd hi' hnot⟩
      · rw [hby.split, List.append_assoc, List.cons_append]
      · rw [heq]
        exact hby.interval
      · rw [heq]
        exact hby.callback
      · rw [← hpass]
        exact List.mem_append_right _ (List.mem_singleton_self y)
      · rw [heq, ← hby.interval]
    | still hold hends hearly =>
      obtain ⟨before, x, since, first, hby⟩ := ih hold
      rw [hby.split] at hends
      refine ⟨before, x, since ++ [y], first, ?_, hby.arms, hby.interval, hby.callback,
        stands_concat hby.stands hends, ?_, fun hnot now hmem => ?_⟩
      · rw [hby.split, List.append_assoc, List.cons_append]
      · rcases hby.due with hdue | ⟨hi, now, hmem, hdue⟩
        · exact .inl hdue
        · exact .inr ⟨hi, now, List.mem_append_left _ hmem, hdue⟩
      · rcases List.mem_append.1 hmem with hold | hnew
        · exact hby.once hnot now hold
        · cases List.mem_singleton.1 hnew
          rcases hby.due with hdue | ⟨hi, -⟩
          · rw [← hdue]
            exact hearly rfl
          · exact absurd hi hnot

-- The pass that found `a` due, since which it has been ringing.
structure RungBy (a : OSAlarm) (log : List (OSTime × Turn)) (callback : OSAlarmCallback)
    (earlier : List (OSTime × Turn)) (now : OSTime) (since : List (OSTime × Turn))
    (arming : Arming) : Prop where
  split : log = earlier ++ (now, .event .pass) :: since
  armed : (timer a earlier).arming = some arming
  due : arming.due ≤ now
  calls : arming.callback = callback
  rings : ∀ l l', since = l ++ l' →
    (timer a (earlier ++ (now, .event .pass) :: l)).ringing = some callback

theorem rings_cases {t : Timer} (h : (t.after a x).ringing = some callback) :
    t.ringing = some callback ∨
      x.2 = .event .pass ∧ ∃ arming, t.arming = some arming ∧ arming.due ≤ x.1 ∧
        arming.callback = callback := by
  obtain ⟨now, turn⟩ := x
  cases turn with
  | wait => exact .inl h
  | event e =>
    cases e with
    | call op reply =>
      rw [Timer.after] at h
      left
      cases op with
      | getUserData => exact h
      | cancelAll =>
        rw [Timer.call, apply_ite Timer.ringing, ite_self] at h
        exact h
      | _ =>
        rw [Timer.call, Timer.edit, apply_ite Timer.ringing, ite_self] at h
        exact h
    | pass =>
      rw [Timer.after, Timer.pass] at h
      split at h
      next arming harming =>
        split at h
        next hdue => exact .inr ⟨rfl, arming, harming, hdue, Option.some.inj h⟩
        next => exact .inl h
      next => exact .inl h
    | skip b | fire b callback' =>
      rw [Timer.after] at h
      split at h
      next => cases h
      next => exact .inl h
    | shutdown => cases h
    | startThread | finish | resume | timeout | tick | setTime | requestStop | exit => exact .inl h

theorem rung_by (h : (timer a log).ringing = some callback) :
    ∃ earlier now since arming, RungBy a log callback earlier now since arming := by
  induction log using List.reverseRecOn with
  | nil => cases h
  | append_singleton log y ih =>
    have hlast := h
    rw [timer_concat] at h
    rcases rings_cases h with hold | ⟨hpass, arming, harming, hdue, hcallback⟩
    · obtain ⟨earlier, now, since, arming, hby⟩ := ih hold
      have hsplit : log ++ [y] = earlier ++ (now, .event .pass) :: (since ++ [y]) := by
        rw [hby.split, List.append_assoc, List.cons_append]
      refine ⟨earlier, now, since ++ [y], arming, hsplit, hby.armed, hby.due, hby.calls,
        fun l l' hl => ?_⟩
      rcases List.eq_nil_or_concat l' with rfl | ⟨m, w, rfl⟩
      · rw [List.append_nil] at hl
        rw [← hl, ← hsplit]
        exact hlast
      · rw [List.concat_eq_append, ← List.append_assoc] at hl
        exact hby.rings l m (List.append_inj' hl rfl).1
    · obtain ⟨now, turn⟩ := y
      obtain rfl : turn = .event .pass := hpass
      refine ⟨log, now, [], arming, rfl, harming, hdue, hcallback, fun l l' hl => ?_⟩
      obtain ⟨rfl, -⟩ := List.append_eq_nil_iff.1 hl.symm
      exact hlast

namespace Threads

variable {τ : Type}

theorem turns_split {es : List (Event τ)} {l l' : List (OSTime × Turn)}
    (h : turnsOf es = l ++ (now, turn) :: l') :
    ∃ before t after, es = before ++ .turn t now turn :: after ∧ turnsOf before = l := by
  obtain ⟨before, rest, rfl, rfl, hrest⟩ := List.filterMap_eq_append_iff.1 h
  obtain ⟨silent, e, after, rfl, hsilent, hturn, -⟩ := List.filterMap_eq_cons_iff.1 hrest
  cases e with
  | call | statement | tick | setTime => cases hturn
  | turn t now' turn' =>
    cases hturn
    refine ⟨before ++ silent, t, after, (List.append_assoc _ _ _).symm, ?_⟩
    rw [turnsOf, List.filterMap_append, List.filterMap_eq_nil_iff.2 hsilent, List.append_nil, ← turnsOf]

variable [DecidableEq τ]

-- No callback comes out of nothing: it is that of a call that armed the alarm, which was in force
-- and due at the last pass, and it has not been invoked since that pass.
theorem every_firing_was_armed (clock : Clock) (es : List (Event τ)) (s : System τ)
    (run : Run (System.start clock) es s) (before after : List (Event τ)) (t : τ) (now : OSTime)
    (a : OSAlarm) (callback : OSAlarmCallback)
    (hfire : es = before ++ .turn t now (.event (.fire a callback)) :: after) :
    ∃ earlier collected since arming,
      RungBy a (turnsOf before) callback earlier collected since arming ∧
      (∀ t, (t, .event .pass) ∉ since) ∧ (∀ t cb, (t, .event (.fire a cb)) ∉ since) ∧
      ∃ l x l' first, ArmedBy a earlier arming l x l' first := by
  obtain ⟨-, hforetold⟩ := alarms_are_timers clock es s run
  obtain ⟨hringing, -⟩ := hforetold before t now _ after hfire
  obtain ⟨earlier, collected, since, arming, hby⟩ := rung_by hringing
  refine ⟨earlier, collected, since, arming, hby, fun time hmem => ?_, fun time cb hmem => ?_, ?_⟩
  · obtain ⟨l, l', hl⟩ := List.append_of_mem hmem
    have hsplit : turnsOf before =
        (earlier ++ (collected, .event .pass) :: l) ++ (time, .event .pass) :: l' := by
      rw [hby.split, hl]
      simp only [List.append_assoc, List.cons_append]
    obtain ⟨before', u, after', hbefore, hlog⟩ := turns_split hsplit
    rw [hbefore, List.append_assoc] at hfire
    have hquiet := hforetold before' u time _ _ hfire a
    rw [hlog, hby.rings l _ hl] at hquiet
    cases hquiet
  · obtain ⟨l, l', hl⟩ := List.append_of_mem hmem
    have hgone := hby.rings (l ++ [(time, .event (.fire a cb))]) l' (by
      rw [hl, List.append_assoc]
      rfl)
    rw [← List.cons_append, ← List.append_assoc, timer_concat, Timer.after, if_pos rfl] at hgone
    cases hgone
  · have hne : a ≠ 0 := by
      rintro rfl
      have harmed := hby.armed
      rw [timer_null] at harmed
      cases harmed
    exact armed_by hne hby.armed

theorem every_firing_was_armed_two :
    ∃ (es : List (Event Bool)) (s : System Bool), Run (System.start ⟨0, 0⟩) es s ∧
      turnsOf es = twoAlarms ∧ ∃ earlier collected since arming l x l' first,
        RungBy 4 (twoAlarms.take 6) 7 earlier collected since arming ∧
          ArmedBy 4 earlier arming l x l' first := by
  obtain ⟨s, ⟨es, run, hlog⟩, -⟩ := logs_twoAlarms
  have hsplit : turnsOf es = twoAlarms.take 6 ++ (60, .event (.fire 4 7)) :: [] := hlog
  obtain ⟨before, t, after, hes, hbefore⟩ := turns_split hsplit
  obtain ⟨earlier, collected, since, arming, hby, -, -, l, x, l', first, harmed⟩ :=
    every_firing_was_armed _ _ s run before after t 60 4 7 hes
  rw [hbefore] at hby
  exact ⟨es, s, run, hlog, earlier, collected, since, arming, l, x, l', first, hby, harmed⟩

end Threads

end CoreinitNx.Alarm
