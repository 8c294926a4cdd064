import DebugAgent.Proofs.Cleared
import DebugAgent.Proofs.OwnThreads

/-!
# The session

Commands and the processing of callbacks have nothing to do with the session.  Once it is open, only
three things happen to it: a callback hands it an event set, the client takes the sets that have
reached it, or the client stops listening.  In particular it is never replaced by another one.

A client that listens misses nothing: what it has taken, followed by what it can still take, is what
there was before, followed by the sets of the callbacks in the order in which they came.
-/

namespace DebugAgent

open DebugAgent.Action Command Registration

/-! ### What happens to the session -/

namespace Agent

/-- The event set that an operation has for the session. -/
def sends? (a : Agent) (op : Op) : Option EventSet :=
  match a.calledBack? op with
  | some (near, caller, c) => (near.fired? caller c).map Fired.events
  | none => none

/-- The event sets that a run has for the session, the first one first. -/
def sent (a : Agent) : List Op → List EventSet
  | [] => []
  | op :: ops => (a.sends? op).toList ++ (a.apply op).sent ops

/-- The event sets that the client takes in an operation. -/
def takes (a : Agent) : Op → List EventSet
  | .drain => a.drain.1
  | _ => []

/-- The event sets that the client takes in a run, the first one first. -/
def taken (a : Agent) : List Op → List EventSet
  | [] => []
  | op :: ops => a.takes op ++ (a.apply op).taken ops

end Agent

/-- The client stops listening. -/
def Op.closes : Op → Bool
  | .closeSession => true
  | _ => false

/-- An open session after an operation that has an event set for it, or none. -/
def Session.after (s : Session) (sent : Option EventSet) : Op → Session
  | .closeSession => { listening := false }
  | .drain => { s with sets := [] }
  | _ => sent.elim s fun set => s.receive set

variable {may : Control → Prop} {a b : Agent} {α : Type} {s : Session}

theorem Move.session (h : Move may a b) : b.session = a.session := by
  cases h with
  | inspection h => cases h <;> rfl
  | told | holdRef | freeRef | tracker | requests => rfl

theorem session_attach (caller : NativeThread) (a : Agent) :
    ((attach caller).perform a).2.session = a.session :=
  ((@Looks.attach Control.Any trivial caller).leaves a).2

/-- Whatever is answered, the session is left alone. -/
theorem session_answer {x : Command α} (hx : x.Makes (Move may)) (caller : NativeThread)
    (a : Agent) : (answer caller x a).2.session = a.session := by
  have hsame : ∀ b, (x.perform b).2.session = b.session := hx.same (f := Agent.session) Move.session
  rw [answer_snd, perform_bind]
  have hattached := session_attach caller a
  split
  · rename_i hattach
    rw [hattach] at hattached
    exact (hsame _).trans hattached
  · rename_i hattach
    rwa [hattach] at hattached

theorem session_serve (caller : NativeThread) (command : ClientCommand) (a : Agent) :
    (Agent.serve caller command a).2.session = a.session := by
  cases command with
  | capabilities => rfl
  | _ => exact session_answer (deed_ofClient caller _).moves caller a

/-- A callback gives the session the event set that it fires. -/
theorem session_onCallback (caller : NativeThread) (c : Callback Handle) (a : Agent) :
    (a.onCallback caller c).session =
      (a.fired? caller c).elim a.session fun fired =>
        a.session.map (Session.receive fired.events) := by
  have hmoves : (Firing.process c).Makes (Move Control.Any) := Firing.moves_process c
  have hprocessed := session_answer hmoves caller a
  rw [Agent.onCallback_eq]
  cases a.fired? caller c with
  | none => exact hprocessed
  | some fired => rw [(send_leaves fired _).2, hprocessed]; rfl

/-- There is only ever one session. -/
theorem attach_of_open (hopen : a.session = some s) (caller : NativeThread) (canDeliver : Bool) :
    Agent.attach caller canDeliver a =
      if a.vm.attachFails then (.error .internal, a)
      else (.error .duplicate, a.setVm (a.vm.attach caller).2) := by
  rw [Agent.attach]
  cases hfails : a.vm.attachFails with
  | true => exact answer_of_not_attaching hfails caller _
  | false =>
      have hattached : Agent.isAttached (a.setVm (a.vm.attach caller).2) = true := by
        simp [Agent.isAttached, Agent.setVm, hopen]
      rw [answer_of_attaching hfails]
      simp [Agent.opening, perform_bind, hattached, Stop.told]

theorem session_apply (hopen : a.session = some s) (op : Op) :
    (a.apply op).session = some (s.after (a.sends? op) op) := by
  have hcallback : ∀ (near : Agent) (caller : NativeThread) (c : Callback Handle),
      near.session = some s → (near.onCallback caller c).session =
        some (((near.fired? caller c).map Fired.events).elim s fun set => s.receive set) := by
    intro near caller c hnear
    rw [session_onCallback, hnear]
    cases near.fired? caller c <;> rfl
  have hlooks : ∀ (caller : NativeThread) {α : Type} {x : Command α},
      x.Makes (Move Control.Any) → (answer caller x a).2.session = some s :=
    fun caller _ _ hx => (session_answer hx caller a).trans hopen
  cases op with
  | setup => exact hopen
  | command caller command => exact (session_serve caller command a).trans hopen
  | attach caller canDeliver =>
      rw [Agent.apply, attach_of_open hopen]
      cases a.vm.attachFails <;> exact hopen
  | closeSession => simp [Agent.apply, Agent.closeSession, Session.after, hopen]
  | drain => simp [Agent.apply, Agent.drain, Session.after, hopen]
  | deliver caller c =>
      rw [Agent.apply, Agent.deliver, Agent.sends?, Agent.calledBack?]
      cases a.vm.delivers c with
      | false => exact hopen
      | true => exact hcallback _ caller _ hopen
  | callback caller c => exact hcallback a caller c hopen
  | trackNew caller h => exact hlooks caller (Looks.trackNew h).moves
  | trackObject caller h declared =>
      exact hlooks caller (Tracking.looks_trackObject h declared).moves
  | trackClass caller h => exact hlooks caller (Tracking.looks_trackClass h).moves
  | release caller id => exact hlooks caller (Tracking.moves_release id)
  | dispose caller id count => exact hlooks caller (Tracking.moves_dispose id count)

/-- The session stays open. -/
theorem attached_run (hattached : a.isAttached) (ops : List Op) : (a.run ops).isAttached := by
  induction ops generalizing a with
  | nil => exact hattached
  | cons op ops ih =>
      obtain ⟨s, hopen⟩ := Option.isSome_iff_exists.mp hattached
      apply ih
      rw [Agent.isAttached, session_apply hopen]
      rfl

/-! ### What the client takes -/

theorem session_step (hopen : a.session = some s) (hlistening : s.listening) {op : Op}
    (hcloses : op.closes = false) :
    ∃ later, (a.apply op).session = some later ∧ later.listening ∧
      a.takes op ++ later.sets = s.sets ++ (a.sends? op).toList := by
  refine ⟨_, session_apply hopen op, ?_⟩
  have hreceives : ∀ sent : Option EventSet,
      let later := sent.elim s fun set => s.receive set
      later.listening ∧ later.sets = s.sets ++ sent.toList := by
    intro sent
    cases sent with
    | none => exact ⟨hlistening, (List.append_nil _).symm⟩
    | some set => simp [Session.receive, hlistening]
  cases op with
  | closeSession => cases hcloses
  | drain => simp [Agent.takes, Agent.drain, hopen, Session.after, hlistening, Agent.sends?,
      Agent.calledBack?]
  | _ => exact hreceives _

theorem session_stream (hopen : a.session = some s) (hlistening : s.listening) {ops : List Op}
    (hcloses : ∀ op ∈ ops, op.closes = false) :
    ∃ later, (a.run ops).session = some later ∧ later.listening ∧
      a.taken ops ++ later.sets = s.sets ++ a.sent ops := by
  induction ops generalizing a s with
  | nil => exact ⟨s, hopen, hlistening, (List.append_nil _).symm⟩
  | cons op ops ih =>
      obtain ⟨hfirst, hrest⟩ := List.forall_mem_cons.mp hcloses
      obtain ⟨near, hnear, hnearListening, hstep⟩ := session_step hopen hlistening hfirst
      obtain ⟨later, hlater, hlaterListening, hstream⟩ := ih hnear hnearListening hrest
      refine ⟨later, hlater, hlaterListening, ?_⟩
      calc a.takes op ++ (a.apply op).taken ops ++ later.sets
          = a.takes op ++ (near.sets ++ (a.apply op).sent ops) := by
            rw [List.append_assoc, hstream]
        _ = s.sets ++ ((a.sends? op).toList ++ (a.apply op).sent ops) := by
            rw [← List.append_assoc, hstep, List.append_assoc]

end DebugAgent
