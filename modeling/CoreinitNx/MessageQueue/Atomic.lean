import CoreinitNx.Library.Critical
import CoreinitNx.MessageQueue.Deque

namespace CoreinitNx.MessageQueue

open Monitor

-- Where a thread is between `mutexLock` and `mutexUnlock`, with what it has in its hands.
inductive Line where
  | setCapacity (size : Int32)
  | assign (size : Int32)
  | resetHead
  | resetCount
  | sendTest (m : OSMessage) (flags : OSMessageFlags)
  | sendHead (m : OSMessage)
  | sendFront (m : OSMessage)
  | sendBack (m : OSMessage)
  | sendCount
  | sendWake
  | receiveTest (flags : OSMessageFlags)
  | receiveCopy
  | receiveHead (m : OSMessage)
  | receiveCount (m : OSMessage)
  | receiveWake (m : OSMessage)
  | peekTest
  | peekCopy
  | leave (reply : Reply)
deriving DecidableEq, Repr

def early : Op → Option Reply
  | .init size => if size ≤ 0 then some .void else none
  | .send none _ | .receive false _ | .peek false => some (.ret 0 none)
  | .send (some _) _ | .receive true _ | .peek true => none

def enter : Op → Line
  | .init size => .setCapacity size
  | .send (some m) flags => .sendTest m flags
  | .receive true flags => .receiveTest flags
  | .peek true => .peekTest
  | .send none _ | .receive false _ | .peek false => .leave (.ret 0 none)

abbrev Statement := Act HostQueue CondVar Reply Line

def statement (q : HostQueue) : Line → Option Statement
  | .setCapacity size => some (.access { q with capacity := size.toUInt32 } (.assign size))
  | .assign size =>
    some (.access { q with ring := List.replicate size.toInt.toNat OSMessage.zero } .resetHead)
  | .resetHead => some (.access { q with head := 0 } .resetCount)
  | .resetCount => some (.access { q with count := 0 } (.leave .void))
  | .sendTest m flags =>
    if q.count ≥ q.capacity then
      if isBlocking flags then some (.wait .notFull) else some (.access q (.leave (.ret 0 none)))
    else some (.access q (if isHighPriority flags then .sendHead m else .sendBack m))
  | .sendHead m =>
    (remainder (q.head + q.capacity - 1) q.capacity).map fun head =>
      .access { q with head := head } (.sendFront m)
  | .sendFront m => (q.write q.head m).map fun q => .access q .sendCount
  | .sendBack m =>
    ((remainder (q.head + q.count) q.capacity).bind fun slot => q.write slot m).map fun q =>
      .access q .sendCount
  | .sendCount => some (.access { q with count := q.count + 1 } .sendWake)
  | .sendWake => some (.wake (.one .notEmpty) (.leave (.ret 1 none)))
  | .receiveTest flags =>
    if q.count = 0 then
      if isBlocking flags then some (.wait .notEmpty) else some (.access q (.leave (.ret 0 none)))
    else some (.access q .receiveCopy)
  | .receiveCopy => (q.read q.head).map fun m => .access q (.receiveHead m)
  | .receiveHead m =>
    (remainder (q.head + 1) q.capacity).map fun head =>
      .access { q with head := head } (.receiveCount m)
  | .receiveCount m => some (.access { q with count := q.count - 1 } (.receiveWake m))
  | .receiveWake m => some (.wake (.one .notFull) (.leave (.ret 1 (some m))))
  | .peekTest =>
    if q.count > 0 then some (.access q .peekCopy) else some (.access q (.leave (.ret 0 none)))
  | .peekCopy => (q.read q.head).map fun m => .access q (.leave (.ret 1 (some m)))
  | .leave reply => some (.unlock reply)

def code : Code HostQueue Op CondVar Reply Line where
  early := early
  enter := enter
  act l q := statement q l
  starts _ _ := True
  timed _ := False
  env _ _ := False
  carry _ found := found

section Statements

variable {q q' : HostQueue} {l l' : Line} {cv : CondVar} {r : Reply} {w : Wake CondVar}

theorem statement_unlock (h : statement q l = some (.unlock r)) : l = .leave r := by
  cases l with
  | leave reply =>
    cases h
    rfl
  | sendTest | receiveTest | peekTest =>
    rw [statement] at h
    split at h
    next => first | cases h | (split at h <;> cases h)
    next => cases h
  | sendHead | sendFront | sendBack | receiveCopy | receiveHead | peekCopy =>
    obtain ⟨_, _, h⟩ := Option.map_eq_some_iff.1 h
    cases h
  | _ => cases h

theorem statement_wake (h : statement q l = some (.wake w l')) :
    l = .sendWake ∧ w = .one .notEmpty ∧ l' = .leave (.ret 1 none) ∨
      ∃ m, l = .receiveWake m ∧ w = .one .notFull ∧ l' = .leave (.ret 1 (some m)) := by
  cases l with
  | sendWake =>
    cases h
    exact .inl ⟨rfl, rfl, rfl⟩
  | receiveWake m =>
    cases h
    exact .inr ⟨m, rfl, rfl, rfl⟩
  | sendTest | receiveTest | peekTest =>
    rw [statement] at h
    split at h
    next => first | cases h | (split at h <;> cases h)
    next => cases h
  | sendHead | sendFront | sendBack | receiveCopy | receiveHead | peekCopy =>
    obtain ⟨_, _, h⟩ := Option.map_eq_some_iff.1 h
    cases h
  | _ => cases h

theorem statement_wait (h : statement q l = some (.wait cv)) :
    (∃ m flags, l = .sendTest m flags ∧ cv = .notFull ∧ q.count ≥ q.capacity ∧
      isBlocking flags = true) ∨
    ∃ flags, l = .receiveTest flags ∧ cv = .notEmpty ∧ q.count = 0 ∧ isBlocking flags = true := by
  cases l with
  | sendTest m flags =>
    rw [statement] at h
    split at h
    next hfull =>
      split at h
      next hblock =>
        cases h
        exact .inl ⟨m, flags, rfl, rfl, hfull, hblock⟩
      next => cases h
    next => cases h
  | receiveTest flags =>
    rw [statement] at h
    split at h
    next hempty =>
      split at h
      next hblock =>
        cases h
        exact .inr ⟨flags, rfl, rfl, hempty, hblock⟩
      next => cases h
    next => cases h
  | peekTest =>
    rw [statement] at h
    split at h <;> cases h
  | sendHead | sendFront | sendBack | receiveCopy | receiveHead | peekCopy =>
    obtain ⟨_, _, h⟩ := Option.map_eq_some_iff.1 h
    cases h
  | _ => cases h

end Statements

-- What is true of a thread that found `q₀` and has come to a line.
def At (op : Op) (q₀ q : HostQueue) (w : Option (Wake CondVar)) : Line → Prop
  | .setCapacity size => op = .init size ∧ ¬size ≤ 0 ∧ q = q₀ ∧ w = none
  | .assign size =>
    op = .init size ∧ ¬size ≤ 0 ∧ q = { q₀ with capacity := size.toUInt32 } ∧ w = none
  | .resetHead => ∃ size, op = .init size ∧ ¬size ≤ 0 ∧ w = none ∧
    q = ⟨List.replicate size.toInt.toNat OSMessage.zero, q₀.head, q₀.count, size.toUInt32⟩
  | .resetCount => ∃ size, op = .init size ∧ ¬size ≤ 0 ∧ w = none ∧
    q = ⟨List.replicate size.toInt.toNat OSMessage.zero, 0, q₀.count, size.toUInt32⟩
  | .sendTest m flags => op = .send (some m) flags ∧ q = q₀ ∧ w = none
  | .sendHead m => ∃ flags, op = .send (some m) flags ∧ isHighPriority flags = true ∧
    ¬q₀.count ≥ q₀.capacity ∧ q = q₀ ∧ w = none
  | .sendFront m => ∃ flags head, op = .send (some m) flags ∧ isHighPriority flags = true ∧
    ¬q₀.count ≥ q₀.capacity ∧ remainder (q₀.head + q₀.capacity - 1) q₀.capacity = some head ∧
    q = { q₀ with head := head } ∧ w = none
  | .sendBack m => ∃ flags, op = .send (some m) flags ∧ ¬isHighPriority flags = true ∧
    ¬q₀.count ≥ q₀.capacity ∧ q = q₀ ∧ w = none
  | .sendCount => ∃ m flags, op = .send (some m) flags ∧ ¬q₀.count ≥ q₀.capacity ∧
    q₀.place m flags = some q ∧ w = none
  | .sendWake => ∃ m flags placed, op = .send (some m) flags ∧ ¬q₀.count ≥ q₀.capacity ∧
    q₀.place m flags = some placed ∧ q = { placed with count := placed.count + 1 } ∧ w = none
  | .receiveTest flags => op = .receive true flags ∧ q = q₀ ∧ w = none
  | .receiveCopy => ∃ flags, op = .receive true flags ∧ q₀.count ≠ 0 ∧ q = q₀ ∧ w = none
  | .receiveHead m => ∃ flags, op = .receive true flags ∧ q₀.count ≠ 0 ∧
    q₀.read q₀.head = some m ∧ q = q₀ ∧ w = none
  | .receiveCount m => ∃ flags head, op = .receive true flags ∧ q₀.count ≠ 0 ∧
    q₀.read q₀.head = some m ∧ remainder (q₀.head + 1) q₀.capacity = some head ∧
    q = { q₀ with head := head } ∧ w = none
  | .receiveWake m => ∃ flags head, op = .receive true flags ∧ q₀.count ≠ 0 ∧
    q₀.read q₀.head = some m ∧ remainder (q₀.head + 1) q₀.capacity = some head ∧
    q = { q₀ with head := head, count := q₀.count - 1 } ∧ w = none
  | .peekTest => op = .peek true ∧ q = q₀ ∧ w = none
  | .peekCopy => op = .peek true ∧ q₀.count > 0 ∧ q = q₀ ∧ w = none
  | .leave reply => program.body op q₀ = .done reply q w

section Bodies

variable {op : Op} {q₀ q q' : HostQueue} {w : Option (Wake CondVar)} {l l' : Line}

theorem at_enter (h : early op = none) (q : HostQueue) : At op q q none (enter op) := by
  cases op with
  | init size =>
    rw [early] at h
    split at h
    next => cases h
    next hsize => exact ⟨rfl, hsize, rfl, rfl⟩
  | send message flags =>
    cases message with
    | none => cases h
    | some m => exact ⟨rfl, rfl, rfl⟩
  | receive buffer flags =>
    cases buffer with
    | false => cases h
    | true => exact ⟨rfl, rfl, rfl⟩
  | peek buffer =>
    cases buffer with
    | false => cases h
    | true => exact ⟨rfl, rfl, rfl⟩

theorem At.access (h : At op q₀ q w l) (hact : statement q l = some (.access q' l')) :
    At op q₀ q' w l' := by
  cases l with
  | setCapacity size =>
    obtain ⟨rfl, hsize, rfl, rfl⟩ := h
    cases hact
    exact ⟨rfl, hsize, rfl, rfl⟩
  | assign size =>
    obtain ⟨rfl, hsize, rfl, rfl⟩ := h
    cases hact
    exact ⟨size, rfl, hsize, rfl, rfl⟩
  | resetHead =>
    obtain ⟨size, rfl, hsize, rfl, rfl⟩ := h
    cases hact
    exact ⟨size, rfl, hsize, rfl, rfl⟩
  | resetCount =>
    obtain ⟨size, rfl, hsize, rfl, rfl⟩ := h
    cases hact
    exact if_neg hsize
  | sendTest m flags =>
    obtain ⟨rfl, rfl, rfl⟩ := h
    rw [statement] at hact
    split at hact
    next hfull =>
      split at hact
      next => cases hact
      next hblock =>
        cases hact
        change osSendMessage q (some m) flags = _
        rw [osSendMessage, if_pos hfull, if_neg hblock]
    next hroom =>
      cases hact
      split
      next hhigh => exact ⟨flags, rfl, hhigh, hroom, rfl, rfl⟩
      next hlow => exact ⟨flags, rfl, hlow, hroom, rfl, rfl⟩
  | sendHead m =>
    obtain ⟨flags, rfl, hhigh, hroom, rfl, rfl⟩ := h
    obtain ⟨head, hhead, heq⟩ := Option.map_eq_some_iff.1 hact
    cases heq
    exact ⟨flags, head, rfl, hhigh, hroom, hhead, rfl, rfl⟩
  | sendFront m =>
    obtain ⟨flags, head, rfl, hhigh, hroom, hhead, rfl, rfl⟩ := h
    obtain ⟨placed, hwrite, heq⟩ := Option.map_eq_some_iff.1 hact
    cases heq
    refine ⟨m, flags, rfl, hroom, ?_, rfl⟩
    rw [HostQueue.place, if_pos hhigh, hhead]
    exact hwrite
  | sendBack m =>
    obtain ⟨flags, rfl, hlow, hroom, rfl, rfl⟩ := h
    obtain ⟨placed, hwrite, heq⟩ := Option.map_eq_some_iff.1 hact
    cases heq
    refine ⟨m, flags, rfl, hroom, ?_, rfl⟩
    rw [HostQueue.place, if_neg hlow]
    exact hwrite
  | sendCount =>
    obtain ⟨m, flags, rfl, hroom, hplace, rfl⟩ := h
    cases hact
    exact ⟨m, flags, q, rfl, hroom, hplace, rfl, rfl⟩
  | sendWake => cases hact
  | receiveTest flags =>
    obtain ⟨rfl, rfl, rfl⟩ := h
    rw [statement] at hact
    split at hact
    next hempty =>
      split at hact
      next => cases hact
      next hblock =>
        cases hact
        change osReceiveMessage q true flags = _
        rw [osReceiveMessage, if_pos rfl, if_pos hempty, if_neg hblock]
    next hsome =>
      cases hact
      exact ⟨flags, rfl, hsome, rfl, rfl⟩
  | receiveCopy =>
    obtain ⟨flags, rfl, hsome, rfl, rfl⟩ := h
    obtain ⟨m, hread, heq⟩ := Option.map_eq_some_iff.1 hact
    cases heq
    exact ⟨flags, rfl, hsome, hread, rfl, rfl⟩
  | receiveHead m =>
    obtain ⟨flags, rfl, hsome, hread, rfl, rfl⟩ := h
    obtain ⟨head, hhead, heq⟩ := Option.map_eq_some_iff.1 hact
    cases heq
    exact ⟨flags, head, rfl, hsome, hread, hhead, rfl, rfl⟩
  | receiveCount m =>
    obtain ⟨flags, head, rfl, hsome, hread, hhead, rfl, rfl⟩ := h
    cases hact
    exact ⟨flags, head, rfl, hsome, hread, hhead, rfl, rfl⟩
  | receiveWake m => cases hact
  | peekTest =>
    obtain ⟨rfl, rfl, rfl⟩ := h
    rw [statement] at hact
    split at hact
    next hsome =>
      cases hact
      exact ⟨rfl, hsome, rfl, rfl⟩
    next hempty =>
      cases hact
      change osPeekMessage q true = _
      rw [osPeekMessage, if_pos rfl, if_neg hempty]
  | peekCopy =>
    obtain ⟨rfl, hsome, rfl, rfl⟩ := h
    obtain ⟨m, hread, heq⟩ := Option.map_eq_some_iff.1 hact
    cases heq
    change osPeekMessage q true = _
    rw [osPeekMessage, if_pos rfl, if_pos hsome, hread]
  | leave reply => cases hact

theorem At.wake {w' : Wake CondVar} (h : At op q₀ q w l)
    (hact : statement q l = some (.wake w' l')) : w = none ∧ At op q₀ q (some w') l' := by
  rcases statement_wake hact with ⟨rfl, rfl, rfl⟩ | ⟨m, rfl, rfl, rfl⟩
  · obtain ⟨m, flags, placed, rfl, hroom, hplace, rfl, rfl⟩ := h
    refine ⟨rfl, ?_⟩
    change osSendMessage q₀ (some m) flags = _
    rw [osSendMessage, if_neg hroom, hplace]
  · obtain ⟨flags, head, rfl, hsome, hread, hhead, rfl, rfl⟩ := h
    refine ⟨rfl, ?_⟩
    change osReceiveMessage q₀ true flags = _
    rw [osReceiveMessage, if_pos rfl, if_neg hsome, hread, hhead]

theorem At.wait {cv : CondVar} (h : At op q₀ q w l) (hact : statement q l = some (.wait cv)) :
    q = q₀ ∧ w = none ∧ program.body op q₀ = .sleep cv := by
  rcases statement_wait hact with ⟨m, flags, rfl, rfl, hfull, hblock⟩ |
      ⟨flags, rfl, rfl, hempty, hblock⟩
  · obtain ⟨rfl, rfl, rfl⟩ := h
    refine ⟨rfl, rfl, ?_⟩
    change osSendMessage q (some m) flags = _
    rw [osSendMessage, if_pos hfull, if_pos hblock]
  · obtain ⟨rfl, rfl, rfl⟩ := h
    refine ⟨rfl, rfl, ?_⟩
    change osReceiveMessage q true flags = _
    rw [osReceiveMessage, if_pos rfl, if_pos hempty, if_pos hblock]

theorem At.fault (h : At op q₀ q w l) (hact : statement q l = none) :
    program.body op q₀ = .fault := by
  cases l with
  | sendHead m =>
    obtain ⟨flags, rfl, hhigh, hroom, rfl, rfl⟩ := h
    have hnone := Option.map_eq_none_iff.1 hact
    change osSendMessage q (some m) flags = _
    rw [osSendMessage, if_neg hroom, HostQueue.place, if_pos hhigh, hnone]
    rfl
  | sendFront m =>
    obtain ⟨flags, head, rfl, hhigh, hroom, hhead, rfl, rfl⟩ := h
    have hnone : HostQueue.write { q₀ with head := head } head m = none :=
      Option.map_eq_none_iff.1 hact
    change osSendMessage q₀ (some m) flags = _
    rw [osSendMessage, if_neg hroom, HostQueue.place, if_pos hhigh, hhead, Option.bind_eq_bind,
      Option.bind_some, hnone]
  | sendBack m =>
    obtain ⟨flags, rfl, hlow, hroom, rfl, rfl⟩ := h
    have hnone := Option.map_eq_none_iff.1 hact
    change osSendMessage q (some m) flags = _
    rw [osSendMessage, if_neg hroom, HostQueue.place, if_neg hlow, Option.bind_eq_bind, hnone]
  | receiveCopy =>
    obtain ⟨flags, rfl, hsome, rfl, rfl⟩ := h
    have hnone := Option.map_eq_none_iff.1 hact
    change osReceiveMessage q true flags = _
    rw [osReceiveMessage, if_pos rfl, if_neg hsome, hnone]
  | receiveHead m =>
    obtain ⟨flags, rfl, hsome, hread, rfl, rfl⟩ := h
    have hnone := Option.map_eq_none_iff.1 hact
    change osReceiveMessage q true flags = _
    rw [osReceiveMessage, if_pos rfl, if_neg hsome, hread, hnone]
  | peekCopy =>
    obtain ⟨rfl, hsome, rfl, rfl⟩ := h
    have hnone := Option.map_eq_none_iff.1 hact
    change osPeekMessage q true = _
    rw [osPeekMessage, if_pos rfl, if_pos hsome, hnone]
  | sendTest | receiveTest | peekTest =>
    rw [statement] at hact
    split at hact
    next => first | cases hact | (split at hact <;> cases hact)
    next => cases hact
  | _ => cases hact

theorem reaches_at (hlate : early op = none) (h : Reaches code op q₀ l q w) : At op q₀ q w l := by
  induction h with
  | enter q => exact at_enter hlate q
  | statement _ hact ih => exact ih.access hact
  | wake _ hact ih => exact (ih.wake hact).2
  | environment _ henv => exact henv.elim

theorem body_early {r : Reply} (h : early op = some r) (q : HostQueue) :
    program.body op q = .done r q none := by
  cases op with
  | init size =>
    rw [early] at h
    split at h
    next hsize =>
      cases h
      exact if_pos hsize
    next => cases h
  | send message flags =>
    cases message with
    | none =>
      cases h
      rfl
    | some m => cases h
  | receive buffer flags =>
    cases buffer with
    | false =>
      cases h
      rfl
    | true => cases h
  | peek buffer =>
    cases buffer with
    | false =>
      cases h
      rfl
    | true => cases h

end Bodies

theorem code_implements : Implements code program where
  starts _ _ := id
  starts_inside _ _ := trivial
  timed _ := id
  env _ _ := id
  env_inside _ := False.elim
  early _ _ h q := body_early h q
  unlock hlate h hact := by
    cases statement_unlock hact
    exact reaches_at hlate h
  wait hlate h hact := (reaches_at hlate h).wait hact
  wake hlate h hact := ((reaches_at hlate h).wake hact).1
  fault hlate h hact := (reaches_at hlate h).fault hact

open BoundedDeque

variable {τ : Type} [DecidableEq τ] {es : List (FineEvent τ Op CondVar Reply)}
  {c : Fine τ HostQueue Op CondVar Line}

-- However the statements of the calls interleave, their answers and the order they come in are
-- those of a bounded deque whose calls are one step each, and no statement is undefined.
theorem queue_is_atomic
    (run : Transition.Run (FineStep code) ⟨HostObject.init, fun _ => .idle, none⟩ es c) :
    ∃ d : BoundedDeque OSMessage,
      Transition.Run (ObjectStep deque) ⟨cleared 0, fun _ => none⟩ (es.filterMap FineEvent.seen)
        ⟨d, fun t => (c.status t).pending⟩ ∧
      (c.inside = none → Represents c.shared d) ∧
      ∀ h, c.inside = some h → (statement c.shared h.line).isSome := by
  obtain ⟨hinv, es', hrun, hseen⟩ := code_implements.run run rfl
  obtain ⟨d, hsim, hrep⟩ := hrun.simulate program_simulates represents_init
  refine ⟨d, ?_, fun hfree => ?_, fun h hin => ?_⟩
  · have hpending : (Config.object ⟨d, c.view.status⟩ : Object τ _ Op) =
        ⟨d, fun t => (c.status t).pending⟩ :=
      congrArg (fun o : Object τ HostQueue Op => (⟨d, o.pending⟩ : Object τ _ Op)) hinv.object
    rw [← hseen, ← hpending]
    exact Program.run_object (fun _ _ => id) hsim
  · rw [c.view_free hfree] at hrep
    exact hrep
  · rw [c.view_inside hin] at hrep
    refine hinv.defined code_implements hin fun hfault => ?_
    have hm := program_simulates.body h.op _ _ hrep
    rw [hfault] at hm
    cases hm

-- The receiver sleeps, and another call comes while the sender that wakes it up is halfway.
theorem queue_is_atomic_halfway :
    ∃ (d : BoundedDeque OSMessage) (pending : Fin 3 → Option Op),
      Transition.Run (ObjectStep deque) ⟨cleared 0, fun _ => none⟩
        [.call 0 (.init 1), .returned 0 (.init 1) .void, .call 0 (.receive true 1),
          .call 1 (.send (some ⟨7, 1, 2, 3⟩) 0), .call 2 (.peek true),
          .returned 1 (.send (some ⟨7, 1, 2, 3⟩) 0) (.ret 1 none),
          .returned 0 (.receive true 1) (.ret 1 (some ⟨7, 1, 2, 3⟩))]
        ⟨d, pending⟩ := by
  have h0 : Transition.Run (FineStep code) ⟨HostObject.init, fun _ : Fin 3 => .idle, none⟩ [] _ :=
    .nil
  have h1 := h0.snoc (e := .call 0 (.init 1)) (.call rfl trivial)
  have h2 := h1.snoc (e := .acquire 0 (.init 1)) (.acquire rfl (.inl rfl) rfl)
  have h3 := h2.snoc (.statement rfl rfl)
  have h4 := h3.snoc (.statement rfl rfl)
  have h5 := h4.snoc (.statement rfl rfl)
  have h6 := h5.snoc (.statement rfl rfl)
  have h7 := h6.snoc (.returned rfl rfl)
  have h8 := h7.snoc (e := .call 0 (.receive true 1)) (.call rfl trivial)
  have h9 := h8.snoc (e := .acquire 0 (.receive true 1)) (.acquire rfl (.inl rfl) rfl)
  have h10 := h9.snoc (.slept rfl rfl)
  have h11 := h10.snoc (e := .call 1 (.send (some ⟨7, 1, 2, 3⟩) 0)) (.call rfl trivial)
  have h12 := h11.snoc (e := .acquire 1 (.send (some ⟨7, 1, 2, 3⟩) 0)) (.acquire rfl (.inl rfl) rfl)
  have h13 := h12.snoc (.statement rfl rfl)
  have h14 := h13.snoc (.statement rfl rfl)
  have h15 := h14.snoc (e := .call 2 (.peek true)) (.call rfl trivial)
  have h16 := h15.snoc (.statement rfl rfl)
  have h17 := h16.snoc (.wake rfl rfl (.one (u := 0) rfl))
  have h18 := h17.snoc (.returned rfl rfl)
  have h19 := h18.snoc (e := .acquire 0 (.receive true 1)) (.acquire rfl (.inr ⟨.notEmpty, rfl⟩) rfl)
  have h20 := h19.snoc (.statement rfl rfl)
  have h21 := h20.snoc (.statement rfl rfl)
  have h22 := h21.snoc (.statement rfl rfl)
  have h23 := h22.snoc (.statement rfl rfl)
  have h24 := h23.snoc (.wake rfl rfl (.nobody (by decide)))
  have h25 := h24.snoc (.returned rfl rfl)
  obtain ⟨d, hrun, -, -⟩ := queue_is_atomic h25
  exact ⟨d, _, hrun⟩

end CoreinitNx.MessageQueue
