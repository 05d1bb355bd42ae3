import CoreinitNx.MessageQueue.Deque

namespace CoreinitNx.MessageQueue

open Monitor BoundedDeque

-- A message the queue took, with whether it was sent in front of the others.
abbrev Sent := Bool × OSMessage

-- Since the queue was last initialised: what it took, and what it handed out.
structure Log where
  accepted : List Sent
  delivered : List OSMessage
deriving DecidableEq, Repr

def Log.record (log : Log) (r : Reply) : Op → Log
  | .init size => if 0 < size then ⟨[], []⟩ else log
  | .send none _ => log
  | .send (some m) flags =>
      if r = .ret 1 none then { log with accepted := log.accepted ++ [(isHighPriority flags, m)] }
      else log
  | .receive _ _ =>
      match r with
      | .ret _ (some m) => { log with delivered := log.delivered ++ [m] }
      | .ret _ none | .void => log
  | .peek _ => log

def Log.step {τ : Type} (log : Log) : Event τ Op CondVar Reply → Log
  | .returned _ op r => log.record r op
  | .call _ _ | .slept _ _ _ | .timedOut _ | .environment => log

def Log.of {τ : Type} (es : List (Event τ Op CondVar Reply)) : Log := es.foldl Log.step ⟨[], []⟩

def Sent.Normal (m : Sent) : Prop := m.1 = false

instance (m : Sent) : Decidable m.Normal := inferInstanceAs (Decidable (_ = _))

-- `out` is what was handed out and `inside` what is still in the queue: together each message
-- taken, once, the normal ones in the order in which they were taken.
structure Accounts (log : Log) (items : List OSMessage) (out inside : List Sent) : Prop where
  delivered : out.map Prod.snd = log.delivered
  items : inside.map Prod.snd = items
  once : (out ++ inside).Perm log.accepted
  inOrder : (out ++ inside).filter (·.Normal) = log.accepted.filter (·.Normal)

variable {log : Log} {items rest : List OSMessage} {out inside : List Sent} {m : OSMessage}
  {d d' : BoundedDeque OSMessage} {op : Op} {r : Reply} {w : Option (Wake CondVar)}

namespace Accounts

theorem empty : Accounts ⟨[], []⟩ [] [] [] := ⟨rfl, rfl, .refl [], rfl⟩

theorem pushBack (h : Accounts log items out inside) (m : OSMessage) :
    Accounts { log with accepted := log.accepted ++ [(false, m)] } (items ++ [m]) out
      (inside ++ [(false, m)]) := by
  refine ⟨h.delivered, ?_, ?_, ?_⟩
  · rw [List.map_append, h.items]
    rfl
  · rw [← List.append_assoc]
    exact h.once.append_right _
  · change _ = (log.accepted ++ [(false, m)]).filter _
    rw [← List.append_assoc, List.filter_append, List.filter_append log.accepted,
      h.inOrder]

-- A message sent in front goes before what is inside and after what was handed out.
theorem pushFront (h : Accounts log items out inside) (m : OSMessage) :
    Accounts { log with accepted := log.accepted ++ [(true, m)] } (m :: items) out
      ((true, m) :: inside) := by
  have hnot : ¬Sent.Normal (true, m) := nofun
  refine ⟨h.delivered, ?_, ?_, ?_⟩
  · rw [List.map_cons, h.items]
  · exact List.perm_middle.trans ((h.once.cons _).trans (List.perm_append_singleton _ _).symm)
  · have hold := h.inOrder
    rw [List.filter_append] at hold
    rw [List.filter_append, List.filter_append, List.filter_cons_of_neg (by simpa using hnot), hold,
      List.filter_cons_of_neg (by simpa using hnot), List.filter_nil, List.append_nil]

theorem popFront (h : Accounts log (m :: rest) out inside) :
    ∃ out' inside', Accounts { log with delivered := log.delivered ++ [m] } rest out' inside' := by
  obtain ⟨hdelivered, hitems, honce, horder⟩ := h
  cases inside with
  | nil => cases hitems
  | cons next inside =>
    obtain ⟨hnext, hrest⟩ := List.cons.inj hitems
    refine ⟨out ++ [next], inside, ?_, hrest, ?_, ?_⟩
    · rw [List.map_append, hdelivered, List.map_singleton, hnext]
    · rwa [List.append_assoc]
    · rwa [List.append_assoc]

end Accounts

theorem deque_accounts (h : Accounts log d.items out inside) (hb : deque.body op d = .done r d' w) :
    ∃ out' inside', Accounts (log.record r op) d'.items out' inside' := by
  cases op with
  | init size =>
    cases hb
    by_cases hsize : 0 < size
    · rw [Log.record, if_pos hsize, if_pos hsize]
      exact ⟨[], [], .empty⟩
    · rw [Log.record, if_neg hsize, if_neg hsize]
      exact ⟨out, inside, h⟩
  | send message flags =>
    cases message with
    | none =>
      cases hb
      exact ⟨out, inside, h⟩
    | some m =>
      simp only [deque] at hb
      split at hb
      next hroom =>
        cases hb
        rw [Log.record, if_pos rfl]
        cases isHighPriority flags with
        | false => exact ⟨_, _, h.pushBack m⟩
        | true => exact ⟨_, _, h.pushFront m⟩
      next =>
        split at hb
        · cases hb
        · cases hb
          exact ⟨out, inside, h⟩
  | receive buffer flags =>
    cases buffer with
    | false =>
      cases hb
      exact ⟨out, inside, h⟩
    | true =>
      simp only [deque] at hb
      split at hb
      next m rest hitems =>
        cases hb
        rw [hitems] at h
        rw [show d.popFront.items = rest from congrArg List.tail hitems]
        exact h.popFront
      next =>
        split at hb
        · cases hb
        · cases hb
          exact ⟨out, inside, h⟩
  | peek buffer =>
    cases buffer with
    | false =>
      cases hb
      exact ⟨out, inside, h⟩
    | true =>
      simp only [deque] at hb
      split at hb <;> cases hb <;> exact ⟨out, inside, h⟩

theorem Log.of_concat {τ : Type} (es : List (Event τ Op CondVar Reply))
    (e : Event τ Op CondVar Reply) : Log.of (es ++ [e]) = (Log.of es).step e := by
  rw [Log.of, List.foldl_append]
  rfl

variable {τ : Type} [DecidableEq τ] {es : List (Event τ Op CondVar Reply)}

theorem deque_run_accounts {c : Config τ (BoundedDeque OSMessage) Op CondVar}
    (run : Run deque ⟨cleared 0, fun _ => .idle⟩ es c) :
    ∃ out inside, Accounts (Log.of es) c.shared.items out inside := by
  induction run with
  | nil => exact ⟨[], [], .empty⟩
  | snoc _ hs ih =>
    obtain ⟨out, inside, h⟩ := ih
    rw [Log.of_concat]
    cases hs with
    | call | slept | timedOut => exact ⟨out, inside, h⟩
    | returned _ hb _ => exact deque_accounts h hb
    | environment henv => exact henv.elim

-- Whatever the threads do, every message accepted since the queue was initialised comes out once
-- or is still inside, and the normal ones keep the order in which they were accepted.
theorem messages_delivered_once {c : Config τ HostQueue Op CondVar}
    (run : Run program ⟨HostObject.init, fun _ => .idle⟩ es c) :
    ∃ d, Represents c.shared d ∧ ∃ out inside, Accounts (Log.of es) d.items out inside := by
  obtain ⟨d, hrun, hrep, -, -⟩ := message_queue_refines_deque run
  exact ⟨d, hrep, deque_run_accounts hrun⟩

-- The second message is sent in front, and is the one received.
theorem messages_delivered_once_urgent :
    ∃ (es : List (Event Bool Op CondVar Reply)) (c : Config Bool HostQueue Op CondVar) (d : _),
      Log.of es = ⟨[(false, ⟨1, 1, 2, 3⟩), (true, ⟨2, 1, 2, 3⟩)], [⟨2, 1, 2, 3⟩]⟩ ∧
      Represents c.shared d ∧ ∃ out inside, Accounts (Log.of es) d.items out inside := by
  have h0 : Run program ⟨HostObject.init, fun _ : Bool => .idle⟩ [] _ := .nil
  have h1 := h0.snoc (e := .call true (.init 2)) (.call rfl trivial)
  have h2 := h1.snoc (e := .returned true _ _)
    (.returned (s := ⟨[.zero, .zero], 0, 0, 2⟩) (.inl rfl) rfl (.none _))
  have h3 := h2.snoc (e := .call true (.send (some ⟨1, 1, 2, 3⟩) 0)) (.call rfl trivial)
  have h4 := h3.snoc (e := .returned true _ _)
    (.returned (s := ⟨[⟨1, 1, 2, 3⟩, .zero], 0, 1, 2⟩) (.inl rfl) rfl (.nobody (by decide)))
  have h5 := h4.snoc (e := .call false (.send (some ⟨2, 1, 2, 3⟩) 2)) (.call rfl trivial)
  have h6 := h5.snoc (e := .returned false _ _)
    (.returned (s := ⟨[⟨1, 1, 2, 3⟩, ⟨2, 1, 2, 3⟩], 1, 2, 2⟩) (r := .ret 1 none)
      (w := some (.one .notEmpty)) (.inl rfl) (by decide +kernel) (.nobody (by decide)))
  have h7 := h6.snoc (e := .call true (.receive true 0)) (.call rfl trivial)
  have h8 := h7.snoc (e := .returned true _ _)
    (.returned (s := ⟨[⟨1, 1, 2, 3⟩, ⟨2, 1, 2, 3⟩], 0, 1, 2⟩)
      (r := .ret 1 (some ⟨2, 1, 2, 3⟩)) (w := some (.one .notFull))
      (.inl rfl) (by decide +kernel) (.nobody (by decide)))
  obtain ⟨d, hrep, haccounts⟩ := messages_delivered_once h8
  exact ⟨_, _, d, rfl, hrep, haccounts⟩

end CoreinitNx.MessageQueue
