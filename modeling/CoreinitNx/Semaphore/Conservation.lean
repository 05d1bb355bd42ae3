import CoreinitNx.Library.Wakeups
import CoreinitNx.Semaphore.Basic

namespace CoreinitNx.Semaphore

open Monitor

variable {τ : Type} [DecidableEq τ] {es : List (Monitor.Event τ Op CondVar Reply)}
  {e : Monitor.Event τ Op CondVar Reply} {start c d : Config τ HostSemaphore Op CondVar} {t : τ}
  {op : Op} {s s' : HostSemaphore} {r : Reply} {w : Option (Wake CondVar)}

def KeepsCount : Op → Prop
  | .init _ => False
  | .getCount | .signal | .wait | .tryWait => True

def isSignal : Monitor.Event τ Op CondVar Reply → Bool
  | .returned _ .signal _ => true
  | _ => false

-- A wait is successful when it returns, a try when it returns more than zero.
def takes : Op → Reply → Bool
  | .wait, _ => true
  | .tryWait, .ret count => 0 < count
  | _, _ => false

def isTake : Monitor.Event τ Op CondVar Reply → Bool
  | .returned _ op r => takes op r
  | _ => false

theorem toInt_add_one {x : Int32} (h : x ≠ Int32.maxValue) : (x + 1).toInt = x.toInt + 1 := by
  have hne : x.toInt ≠ 2 ^ 31 - 1 := fun hx => h (Int32.toInt_inj.1 hx)
  have hlt := x.toInt_lt
  have hle := x.le_toInt
  rw [Int32.toInt_add, Int32.toInt_one]
  exact Int.bmod_eq_of_le (by omega) (by omega)

theorem toInt_sub_one {x : Int32} (h : 0 < x) : (x - 1).toInt = x.toInt - 1 := by
  have hpos : 0 < x.toInt := Int32.lt_iff_toInt_lt.1 h
  have hlt := x.toInt_lt
  rw [Int32.toInt_sub, Int32.toInt_one]
  exact Int.bmod_eq_of_le (by omega) (by omega)

theorem pos_of_not_le {x : Int32} (h : ¬x ≤ 0) : 0 < x := by
  rw [Int32.le_iff_toInt_le] at h
  rw [Int32.lt_iff_toInt_lt]
  omega

-- What a body that returns has answered and has made of the count.
structure Counts (s : HostSemaphore) (op : Op) (r : Reply) (s' : HostSemaphore) : Prop where
  reply : r = .ret s.count
  count : s'.count.toInt + (if takes op r then 1 else 0 : Nat) =
    s.count.toInt + (if op = .signal then 1 else 0 : Nat)
  taken : takes op r = true → 0 < s.count
  kept : op ≠ .signal → takes op r = false → s' = s

theorem Counts.le (h : Counts s op r s') (hop : op ≠ .signal) :
    s'.count.toInt ≤ s.count.toInt := by
  have hcount := h.count
  rw [if_neg hop] at hcount
  omega

theorem body_counts (hop : KeepsCount op) (h : program.body op s = .done r s' w) :
    Counts s op r s' := by
  cases op with
  | init _ => exact hop.elim
  | getCount =>
    cases h
    exact ⟨rfl, by simp [takes], nofun, fun _ _ => rfl⟩
  | signal =>
    change osSignalSemaphore s = _ at h
    rw [osSignalSemaphore] at h
    split at h
    next => cases h
    next hmax =>
      cases h
      exact ⟨rfl, by simpa [takes] using toInt_add_one hmax, nofun, fun h => absurd rfl h⟩
  | wait =>
    change osWaitSemaphore s = _ at h
    rw [osWaitSemaphore] at h
    split at h
    next => cases h
    next hle =>
      cases h
      have hpos := pos_of_not_le hle
      refine ⟨rfl, ?_, fun _ => hpos, nofun⟩
      simp [takes, toInt_sub_one hpos]
  | tryWait =>
    change osTryWaitSemaphore s = _ at h
    rw [osTryWaitSemaphore] at h
    cases h
    by_cases hpos : s.count > 0
    · refine ⟨rfl, ?_, fun _ => hpos, fun _ hno => ?_⟩
      · have hlt : 0 < s.count := hpos
        simp [takes, hlt, toInt_sub_one hlt]
      · exact absurd (decide_eq_true hpos) (ne_true_of_eq_false hno)
    · have hno : takes .tryWait (.ret s.count) = false := decide_eq_false hpos
      refine ⟨rfl, ?_, fun htake => ?_, fun _ _ => if_neg hpos⟩
      · rw [if_neg hpos, hno]
        simp
      · rw [hno] at htake
        cases htake

theorem sleep_empty {cv : CondVar} (h : program.body op s = .sleep cv) :
    op = .wait ∧ s.count ≤ 0 := by
  cases op with
  | init _ | getCount | tryWait => cases h
  | signal =>
    change osSignalSemaphore s = _ at h
    rw [osSignalSemaphore] at h
    split at h <;> cases h
  | wait =>
    change osWaitSemaphore s = _ at h
    rw [osWaitSemaphore] at h
    split at h
    next hle => exact ⟨rfl, hle⟩
    next => cases h

theorem signal_wakes (h : program.body op s = .done r s' w) (hop : KeepsCount op) :
    w = some (.all .cond) ∨ (w = none ∧ s'.count.toInt ≤ s.count.toInt) := by
  have hle := (body_counts hop h).le
  cases op with
  | init _ => exact hop.elim
  | getCount | tryWait =>
    cases h
    exact .inr ⟨rfl, hle nofun⟩
  | signal =>
    change osSignalSemaphore s = _ at h
    rw [osSignalSemaphore] at h
    split at h
    next => cases h
    next =>
      cases h
      exact .inl rfl
  | wait =>
    change osWaitSemaphore s = _ at h
    rw [osWaitSemaphore] at h
    split at h
    next => cases h
    next =>
      cases h
      exact .inr ⟨rfl, hle nofun⟩

structure Conserved (n : Int32) (es : List (Monitor.Event τ Op CondVar Reply))
    (c : Config τ HostSemaphore Op CondVar) : Prop where
  nonneg : 0 ≤ c.shared.count.toInt
  balance : c.shared.count.toInt + es.countP isTake = n.toInt + es.countP isSignal
  awake : 0 < c.shared.count.toInt → ∀ t, ¬(c.status t).AsleepOn .cond

theorem step_conserved {n : Int32} (hs : Step program c e d)
    (hruns : ∀ t, (c.status t).Runs KeepsCount) (hc : Conserved n es c) :
    Conserved n (es ++ [e]) d := by
  obtain ⟨hnonneg, hbalance, hawake⟩ := hc
  have hupdate {u : τ} {st : Status Op CondVar} (hst : ¬st.AsleepOn .cond)
      (hpos : 0 < c.shared.count.toInt) (v : τ) :
      ¬(Function.update c.status u st v).AsleepOn .cond :=
    forall_update (K := fun x : Status Op CondVar => ¬x.AsleepOn .cond) (hawake hpos) hst v
  cases hs with
  | call => exact ⟨hnonneg, by simpa [List.countP_append, isTake, isSignal] using hbalance,
      hupdate id⟩
  | @slept u op cv _ hbody =>
    refine ⟨hnonneg, by simpa [List.countP_append, isTake, isSignal] using hbalance, fun hpos => ?_⟩
    have hle := Int32.le_iff_toInt_le.1 (sleep_empty hbody).2
    exact absurd hle (not_le.2 hpos)
  | timedOut _ htimed => exact htimed.elim
  | environment henv => exact henv.elim
  | @returned u op r s w st hready hbody hwakes =>
    have hop := hready.runs (hruns u)
    have hcounts := body_counts hop hbody
    have hcount := hcounts.count
    have hsignal : isSignal (.returned u op r : Monitor.Event τ Op CondVar Reply) =
        decide (op = .signal) := by
      cases op <;> rfl
    refine ⟨?_, ?_, fun hpos => ?_⟩
    · by_cases htake : takes op r = true
      · have hpos := Int32.lt_iff_toInt_lt.1 (hcounts.taken htake)
        rw [if_pos htake] at hcount
        change 0 ≤ s.count.toInt
        split at hcount <;> simp only [Int32.toInt_zero] at hpos <;> omega
      · rw [if_neg htake] at hcount
        change 0 ≤ s.count.toInt
        split at hcount <;> omega
    · have htakes : isTake (.returned u op r : Monitor.Event τ Op CondVar Reply) = takes op r := rfl
      rw [List.countP_append, List.countP_append, List.countP_singleton, List.countP_singleton,
        htakes, hsignal, Int.natCast_add, Int.natCast_add]
      simp only [decide_eq_true_eq]
      change s.count.toInt + _ = _
      omega
    · rcases signal_wakes hbody hop with rfl | ⟨rfl, hle⟩
      · cases hwakes
        exact fun v => Status.not_asleepOn_wakeAll (Function.update c.status u .idle v) .cond
      · cases hwakes
        exact hupdate id (lt_of_lt_of_le hpos hle)

theorem run_conserved {n : Int32} (hn : 0 ≤ n)
    (run : Run program ⟨⟨n⟩, fun _ => .idle⟩ es c) (hcalls : OnlyCalls KeepsCount es) :
    Conserved n es c := by
  induction run with
  | nil => exact ⟨Int32.le_iff_toInt_le.1 hn, by simp, fun _ _ => id⟩
  | @snoc es c d e run hs ih =>
    have hbefore : OnlyCalls KeepsCount es := fun t op he => hcalls t op (List.mem_append_left _ he)
    exact step_conserved hs (Run.runs run hbefore fun _ => trivial) (ih hbefore)

-- Only a signal at the largest count and a wait at none do not return.
def Returns (c : Config τ HostSemaphore Op CondVar) : Op → Prop
  | .init _ => False
  | .getCount | .tryWait => True
  | .signal => c.shared.count ≠ Int32.maxValue
  | .wait => 0 < c.shared.count

theorem ready_returns (hop : Returns c op) (hready : (c.status t).Ready op) :
    ∃ d, Step program c (.returned t op (.ret c.shared.count)) d := by
  cases op with
  | init n => exact hop.elim
  | getCount | tryWait => exact ⟨_, .returned hready rfl (.none _)⟩
  | signal => exact ⟨_, .returned hready (if_neg hop) (.all _ CondVar.cond)⟩
  | wait =>
    have hpos : ¬c.shared.count ≤ 0 := Int32.not_le.2 hop
    exact ⟨_, .returned hready (if_neg hpos) (.none _)⟩

theorem ready_sleeps (hzero : ¬0 < c.shared.count) (hready : (c.status t).Ready .wait) :
    ∃ d, Step program c (.slept t .wait .cond) d :=
  ⟨_, .slept hready (if_pos (Int32.not_lt.1 hzero))⟩

theorem semaphore_count_conserved {n : Int32} (hn : 0 ≤ n)
    (hinit : program.body (.init n) s = .done r s' w)
    (run : Run program ⟨s', fun _ => .idle⟩ es c) (hcalls : OnlyCalls KeepsCount es) :
    0 ≤ c.shared.count ∧
      c.shared.count.toInt + es.countP isTake = n.toInt + es.countP isSignal ∧
      (∀ t op r d, Step program c (.returned t op r) d → r = .ret c.shared.count) ∧
      (∀ t v d, Step program c (.returned t .tryWait (.ret v)) d →
        (0 < v ↔ d.shared.count.toInt = c.shared.count.toInt - 1) ∧
          (¬0 < v → d.shared = c.shared)) ∧
      (∀ t v d, Step program c (.returned t .wait (.ret v)) d →
        0 < v ∧ d.shared.count.toInt = c.shared.count.toInt - 1) ∧
      (0 < c.shared.count → ∀ t op cv, (c.status t).Waiting op cv → c.status t = .woken op cv) ∧
      (∀ t op, (c.status t).Ready op →
        op = .getCount ∨ op = .tryWait ∨ op = .wait ∧ 0 < c.shared.count →
          ∃ d, Step program c (.returned t op (.ret c.shared.count)) d) ∧
      (∀ t, (c.status t).Ready .wait → ¬0 < c.shared.count →
        ∃ d, Step program c (.slept t .wait .cond) d) ∧
      (n.toInt + es.countP isSignal + 1 < 2 ^ 31 → ∀ t, (c.status t).Ready .signal →
        ∃ d, Step program c (.returned t .signal (.ret c.shared.count)) d) := by
  cases hinit
  have hc := run_conserved hn run hcalls
  have hruns := Run.runs run hcalls fun _ => trivial
  have hcounts {t : τ} {op : Op} {r : Reply} {d : Config τ HostSemaphore Op CondVar}
      (h : Step program c (.returned t op r) d) : Counts c.shared op r d.shared := by
    cases h with
    | returned hready hbody _ => exact body_counts (hready.runs (hruns t)) hbody
  refine ⟨Int32.le_iff_toInt_le.2 hc.nonneg, hc.balance, fun t op r d h => (hcounts h).reply,
    fun t v d h => ?_, fun t v d h => ?_, fun hpos t op cv hwait => ?_, fun t op hready hop => ?_,
    fun t hready hzero => ready_sleeps hzero hready, fun hbound t hready => ?_⟩
  · have hcount := (hcounts h).count
    have hkept := (hcounts h).kept nofun
    simp only [takes, decide_eq_true_eq, decide_eq_false_iff_not, reduceCtorEq, if_false]
      at hcount hkept
    refine ⟨?_, hkept⟩
    split at hcount
    next hv => exact ⟨fun _ => by omega, fun _ => hv⟩
    next hv => exact ⟨fun h => absurd h hv, fun h => by omega⟩
  · have hv := (hcounts h).taken rfl
    have hcount := (hcounts h).count
    cases (hcounts h).reply
    simp only [takes, if_true, reduceCtorEq, if_false] at hcount
    exact ⟨hv, by omega⟩
  · have hawake := hc.awake (Int32.lt_iff_toInt_lt.1 hpos) t
    rcases hwait with hasleep | hwoken
    · rw [hasleep] at hawake
      cases cv
      exact absurd rfl hawake
    · exact hwoken
  · rcases hop with rfl | rfl | ⟨rfl, hpos⟩
    · exact ready_returns trivial hready
    · exact ready_returns trivial hready
    · exact ready_returns hpos hready
  · have hbelow : Returns c .signal := by
      intro hmax
      have hbalance := hc.balance
      rw [hmax, Int32.toInt_maxValue] at hbalance
      omega
    exact ready_returns hbelow hready

-- Two waiters and one signal: both are woken, one takes the unit, the other sleeps again.
theorem semaphore_count_conserved_two_waiters :
    ∃ (es : List (Monitor.Event (Fin 3) Op CondVar Reply))
      (c : Config (Fin 3) HostSemaphore Op CondVar),
      Run program ⟨⟨0⟩, fun _ => .idle⟩ es c ∧ es.countP isTake = 1 ∧ c.shared.count = 0 ∧
        c.shared.count.toInt + es.countP isTake = (0 : Int32).toInt + es.countP isSignal := by
  have h0 : Run program ⟨⟨0⟩, fun _ : Fin 3 => .idle⟩ [] _ := .nil
  have h1 := h0.snoc (e := .call 0 .wait) (.call rfl trivial)
  have h2 := h1.snoc (e := .slept 0 .wait .cond) (.slept (.inl rfl) rfl)
  have h3 := h2.snoc (e := .call 1 .wait) (.call rfl trivial)
  have h4 := h3.snoc (e := .slept 1 .wait .cond) (.slept (.inl rfl) rfl)
  have h5 := h4.snoc (e := .call 2 .signal) (.call rfl trivial)
  have h6 := h5.snoc (e := .returned 2 .signal (.ret 0)) (.returned (.inl rfl) rfl (.all _ .cond))
  have h7 := h6.snoc (e := .returned 0 .wait (.ret 1))
    (.returned (.inr ⟨.cond, rfl⟩) rfl (.none _))
  have h8 := h7.snoc (e := .slept 1 .wait .cond) (.slept (.inr ⟨.cond, rfl⟩) rfl)
  have hinit : program.body (.init 0) ⟨0⟩ = .done .void ⟨0⟩ none := rfl
  refine ⟨_, _, h8, rfl, rfl,
    (semaphore_count_conserved (by decide) hinit h8 fun t op h => ?_).2.1⟩
  simp only [List.nil_append, List.cons_append, List.mem_cons, List.not_mem_nil, or_false] at h
  rcases h with h | h | h | h | h | h | h | h <;> cases h <;> trivial

end CoreinitNx.Semaphore
