import Mathlib.Algebra.Group.Nat.Defs
import DBWrapper.Translib.Dispatcher

/-!
# The TCP server

The listening thread numbers the connections that it accepts and gives each of
them to one of several dispatchers, which run in threads of their own.  The
dispatcher attaches a session some time later; when the connection ends, the
session asks its dispatcher to be removed.

Under all interleavings of these threads, a session is where its number says, and
belongs to the connection that was accepted under this number; and a dispatcher
with nothing left to do has the sessions that are attached and not closed.
-/

namespace DBWrapper

namespace Translib

open Foundation

/-- Without slavers the master serves the sessions, and is the only one of the
dispatchers.  `accepted` records what `listenEventCallback` has passed on,
`closed` the sessions that have had their last event. -/
structure TcpServer where
  dispatchers : List Dispatcher
  sessionIdGenerator : SessionId
  accepted : List (SessionId × SocketFd)
  closed : List SessionId

inductive TcpServerStep where
  | listenEventCallback (sock : SocketFd)
  /-- What the loop thread of a dispatcher does. -/
  | dispatcher (index : Nat) (step : DispatcherStep)
  /-- `TcpSession::handleEvent`, in the loop thread of its dispatcher. -/
  | handleEvent (index : Nat) (id : SessionId)
  deriving DecidableEq, Repr

namespace TcpServer

def create (threads : UInt16) : TcpServer :=
  { dispatchers := List.replicate (max 1 threads.toNat) .create
    sessionIdGenerator := 0, accepted := [], closed := [] }

/-- The index of the dispatcher. -/
def getSessionDispatcher (server : TcpServer) (id : SessionId) : Nat :=
  id.toNat % server.dispatchers.length

def perform (server : TcpServer) (index : Nat) (step : DispatcherStep) :
    Option TcpServer :=
  match server.dispatchers[index]? with
  | none => none
  | some dispatcher =>
      (Dispatcher.step dispatcher step).map fun next =>
        { server with dispatchers := server.dispatchers.set index next }

def step (server : TcpServer) : TcpServerStep → Option TcpServer
  | .listenEventCallback sock =>
      if sock = socketFdInvalid then
        none
      else
        let id := server.sessionIdGenerator + 1
        (server.perform (server.getSessionDispatcher id)
          (.addSession id sock)).map fun server =>
            { server with
              sessionIdGenerator := id
              accepted := server.accepted ++ [(id, sock)] }
  | .dispatcher index step =>
      match step with
      | .addSession _ _ | .removeSession _ => none
      | .onFrame | .turn _ _ | .attached => server.perform index step
  | .handleEvent index id =>
      match server.dispatchers[index]? with
      | none => none
      | some dispatcher =>
          if dispatcher.phase = .outside ∧ id ∈ dispatcher.sessions ∧
              id ∉ server.closed then
            (server.perform index (.removeSession id)).map fun server =>
              { server with closed := server.closed ++ [id] }
          else
            none

end TcpServer

/-! ### What a dispatcher is given -/

namespace Dispatcher

/-- A session in the table has been added for a connection. -/
theorem exists_adds_of_foldl_takeEffect
    {handled : List (SessionAction × Bool)} {id : SessionId}
    {session : TcpSession}
    (found : (handled.foldl takeEffect ∅)[id]? = some session) :
    ∃ entry ∈ handled, Adds id entry ∧
      session = { id, bev := some entry.1.sock } := by
  induction handled using List.reverseRecOn with
  | nil => simp at found
  | append_singleton handled entry induction =>
      have older : (handled.foldl takeEffect ∅)[id]? = some session →
          ∃ earlier ∈ handled ++ [entry], Adds id earlier ∧
            session = { id, bev := some earlier.1.sock } := by
        intro before
        obtain ⟨earlier, listed, both⟩ := induction before
        exact ⟨earlier, List.mem_append_left _ listed, both⟩
      rw [List.foldl_append, List.foldl_cons, List.foldl_nil, takeEffect] at found
      split at found
      · rename_i valid
        split at found
        · rename_i attached
          rw [Std.TreeMap.getElem?_insert] at found
          split at found
          · rename_i same
            have sameId : entry.1.id = id := Std.LawfulEqCmp.eq_of_compare same
            cases found
            exact ⟨entry, by simp, ⟨sameId, valid, attached⟩, by rw [sameId]⟩
          · exact older found
        · exact older found
      · rw [Std.TreeMap.getElem?_erase] at found
        split at found
        · cases found
        · exact older found

end Dispatcher

/-- The actions that have been queued at a dispatcher: a connection for each of
its numbers, and a removal for each of these that has ended. -/
structure Fed (mine : SessionId → Bool) (accepted : List (SessionId × SocketFd))
    (closed : List SessionId) (queued : List SessionAction) : Prop where
  added : queued.filter (fun action => action.sock ≠ socketFdInvalid) =
    (accepted.filter fun entry => mine entry.1).map
      fun entry => { id := entry.1, sock := entry.2 }
  removed : (queued.filter fun action => action.sock = socketFdInvalid).map
    SessionAction.id = closed.filter mine
  order : ∀ front action back, queued = front ++ action :: back →
    action.sock = socketFdInvalid →
      ∃ earlier ∈ front, earlier.id = action.id ∧
        earlier.sock ≠ socketFdInvalid

namespace Fed

variable {mine : SessionId → Bool} {accepted : List (SessionId × SocketFd)}
  {closed : List SessionId} {queued : List SessionAction}

theorem start (mine : SessionId → Bool) : Fed mine [] [] [] where
  added := rfl
  removed := rfl
  order := by simp

theorem accept
    (fed : Fed mine accepted closed queued) {id : SessionId} {sock : SocketFd}
    (isMine : mine id = true) (valid : sock ≠ socketFdInvalid) :
    Fed mine (accepted ++ [(id, sock)]) closed (queued ++ [⟨id, sock⟩]) where
  added := by
    rw [List.filter_append, List.filter_append, List.map_append, fed.added]
    simp [isMine, valid]
  removed := by
    rw [List.filter_append, List.map_append, fed.removed]
    simp [valid]
  order := by
    intro front action back whole removal
    rcases append_singleton_eq_append_cons_iff.mp whole with
      ⟨_, rfl, _⟩ | ⟨middle, _, older⟩
    · exact (valid removal).elim
    · exact fed.order front action middle older removal

theorem accept_other
    (fed : Fed mine accepted closed queued) {id : SessionId} (sock : SocketFd)
    (notMine : mine id = false) :
    Fed mine (accepted ++ [(id, sock)]) closed queued where
  added := by
    rw [List.filter_append, fed.added]
    simp [notMine]
  removed := fed.removed
  order := fed.order

theorem mem_iff (fed : Fed mine accepted closed queued) (id : SessionId)
    {sock : SocketFd} (valid : sock ≠ socketFdInvalid) :
    ⟨id, sock⟩ ∈ queued ↔ (id, sock) ∈ accepted ∧ mine id = true := by
  have inFilter : ⟨id, sock⟩ ∈ queued ↔
      ⟨id, sock⟩ ∈ queued.filter
        fun action : SessionAction => action.sock ≠ socketFdInvalid := by
    simp [valid]
  rw [inFilter, fed.added]
  simp

theorem close
    (fed : Fed mine accepted closed queued) {id : SessionId}
    (isMine : mine id = true)
    (earlier : ∃ action ∈ queued, action.id = id ∧
      action.sock ≠ socketFdInvalid) :
    Fed mine accepted (closed ++ [id])
      (queued ++ [⟨id, socketFdInvalid⟩]) where
  added := by
    rw [List.filter_append, fed.added]
    simp
  removed := by
    rw [List.filter_append, List.map_append, fed.removed, List.filter_append]
    simp [isMine]
  order := by
    intro front action back whole removal
    rcases append_singleton_eq_append_cons_iff.mp whole with
      ⟨rfl, rfl, _⟩ | ⟨middle, _, older⟩
    · exact earlier
    · exact fed.order front action middle older removal

theorem close_other
    (fed : Fed mine accepted closed queued) {id : SessionId}
    (notMine : mine id = false) :
    Fed mine accepted (closed ++ [id]) queued where
  added := fed.added
  removed := by
    rw [fed.removed, List.filter_append]
    simp [notMine]
  order := fed.order

end Fed

/-! ### The invariant -/

namespace TcpServer

/-- The numbers that this dispatcher serves. -/
def mine (count index : Nat) (id : SessionId) : Bool :=
  decide (id.toNat % count = index)

/-- The generator has not wrapped around yet. -/
structure Sound (server : TcpServer) : Prop where
  serving : 0 < server.dispatchers.length
  generator : server.sessionIdGenerator.toNat = server.accepted.length
  numbers : ∀ entry ∈ server.accepted,
    entry.1.toNat ≤ server.accepted.length
  distinct : (server.accepted.map Prod.fst).Nodup
  each : ∀ index dispatcher, server.dispatchers[index]? = some dispatcher →
    ∃ queued, dispatcher.Ordered queued ∧
      Fed (mine server.dispatchers.length index) server.accepted server.closed
        queued

theorem sound_create (threads : UInt16) : (create threads).Sound where
  serving := by
    rw [create, List.length_replicate]
    omega
  generator := rfl
  numbers := by simp [create]
  distinct := List.nodup_nil
  each := by
    intro index dispatcher found
    have listed := List.mem_of_getElem? found
    rw [create] at listed
    rw [List.eq_of_mem_replicate listed]
    exact ⟨[], Dispatcher.ordered_create, .start _⟩

theorem perform_eq_some
    {server next : TcpServer} {index : Nat} {step : DispatcherStep}
    (performed : server.perform index step = some next) :
    ∃ dispatcher after, server.dispatchers[index]? = some dispatcher ∧
      Dispatcher.step dispatcher step = some after ∧
        next = { server with dispatchers := server.dispatchers.set index after } := by
  rw [perform] at performed
  split at performed
  · cases performed
  · rename_i dispatcher found
    obtain ⟨after, stepped, rfl⟩ := Option.map_eq_some_iff.mp performed
    exact ⟨dispatcher, after, found, stepped, rfl⟩

/-- One dispatcher makes a step, and what is accepted and closed changes
accordingly. -/
theorem each_of_step
    {server : TcpServer} (sound : server.Sound) {index : Nat}
    {dispatcher after : Dispatcher} {step : DispatcherStep}
    (found : server.dispatchers[index]? = some dispatcher)
    (stepped : Dispatcher.step dispatcher step = some after)
    {accepted : List (SessionId × SocketFd)} {closed : List SessionId}
    (here : ∀ queued,
      dispatcher.Ordered queued →
        Fed (mine server.dispatchers.length index) server.accepted server.closed
          queued →
        Fed (mine server.dispatchers.length index) accepted closed
          (queued ++ step.queued?.toList))
    (elsewhere : ∀ other queued, other ≠ index →
      Fed (mine server.dispatchers.length other) server.accepted server.closed
          queued →
        Fed (mine server.dispatchers.length other) accepted closed queued) :
    ∀ other dispatcher,
      (server.dispatchers.set index after)[other]? = some dispatcher →
        ∃ queued, dispatcher.Ordered queued ∧
          Fed (mine (server.dispatchers.set index after).length other) accepted
            closed queued := by
  intro other dispatcher' foundOther
  rw [List.length_set]
  by_cases same : other = index
  · subst same
    obtain ⟨inside, _⟩ := List.getElem?_eq_some_iff.mp found
    rw [List.getElem?_set_self inside] at foundOther
    cases foundOther
    obtain ⟨queued, ordered, fed⟩ := sound.each other dispatcher found
    exact ⟨_, ordered.step stepped, here queued ordered fed⟩
  · rw [List.getElem?_set_ne (Ne.symm same)] at foundOther
    obtain ⟨queued, ordered, fed⟩ := sound.each other dispatcher' foundOther
    exact ⟨queued, ordered, elsewhere other queued same fed⟩

theorem Sound.accept
    {server next : TcpServer} (sound : server.Sound) {sock : SocketFd}
    (accepts : step server (.listenEventCallback sock) = some next)
    (few : next.accepted.length < 2 ^ 64) : next.Sound := by
  simp only [step] at accepts
  split at accepts
  · cases accepts
  · rename_i valid
    obtain ⟨middle, performed, rfl⟩ := Option.map_eq_some_iff.mp accepts
    obtain ⟨dispatcher, after, found, stepped, rfl⟩ := perform_eq_some performed
    simp only [List.length_append, List.length_singleton] at few
    have number : (server.sessionIdGenerator + 1).toNat =
        server.accepted.length + 1 := by
      rw [UInt64.toNat_add, sound.generator]
      exact Nat.mod_eq_of_lt few
    have isMine : mine server.dispatchers.length
        (server.getSessionDispatcher (server.sessionIdGenerator + 1))
        (server.sessionIdGenerator + 1) = true := decide_eq_true rfl
    exact
      { serving := by
          rw [List.length_set]
          exact sound.serving
        generator := by simp [number]
        numbers := by
          intro entry listed
          rw [List.length_append, List.length_singleton]
          rcases List.mem_append.mp listed with older | newest
          · exact Nat.le_trans (sound.numbers entry older) (Nat.le_succ _)
          · cases List.mem_singleton.mp newest
            exact Nat.le_of_eq number
        distinct := by
          rw [List.map_append, List.map_singleton]
          refine List.nodup_append.mpr ⟨sound.distinct, by simp, ?_⟩
          intro id older newest isNewest same
          obtain ⟨entry, listed, rfl⟩ := List.mem_map.mp older
          have bound := sound.numbers entry listed
          rw [same, List.mem_singleton.mp isNewest, number] at bound
          omega
        each := by
          apply each_of_step sound found stepped
          · intro queued _ fed
            exact fed.accept isMine valid
          · intro other queued different fed
            apply fed.accept_other sock
            exact decide_eq_false (Ne.symm different) }

/-- A session that is in the table has been added before. -/
theorem exists_added
    {dispatcher : Dispatcher} {queued : List SessionAction}
    (ordered : dispatcher.Ordered queued) {id : SessionId}
    (present : id ∈ dispatcher.sessions) :
    ∃ action ∈ queued, action.id = id ∧ action.sock ≠ socketFdInvalid := by
  rw [ordered.table, Dispatcher.mem_foldl_takeEffect] at present
  obtain ⟨before, entry, after, whole, ⟨sameId, valid, _⟩, _⟩ := present
  refine ⟨entry.1, ?_, sameId, valid⟩
  rw [ordered.order, whole]
  simp

theorem Sound.handleEvent
    {server next : TcpServer} (sound : server.Sound) {index : Nat}
    {id : SessionId}
    (handles : step server (.handleEvent index id) = some next) :
    next.Sound := by
  simp only [step] at handles
  split at handles
  · cases handles
  · rename_i dispatcher found
    split at handles
    · rename_i enabled
      obtain ⟨middle, performed, rfl⟩ := Option.map_eq_some_iff.mp handles
      obtain ⟨same, after, foundSame, stepped, rfl⟩ := perform_eq_some performed
      rw [found] at foundSame
      cases foundSame
      have isMine : mine server.dispatchers.length index id = true := by
        obtain ⟨queued, ordered, fed⟩ := sound.each index dispatcher found
        obtain ⟨action, listed, rfl, valid⟩ := exists_added ordered enabled.2.1
        exact ((fed.mem_iff action.id valid).mp listed).2
      exact
        { serving := by
            rw [List.length_set]
            exact sound.serving
          generator := sound.generator
          numbers := sound.numbers
          distinct := sound.distinct
          each := by
            apply each_of_step sound found stepped
            · intro queued ordered fed
              exact fed.close isMine (exists_added ordered enabled.2.1)
            · intro other queued different fed
              apply fed.close_other
              apply decide_eq_false
              intro alsoOther
              exact different (alsoOther.symm.trans (of_decide_eq_true isMine)) }
    · cases handles

theorem Sound.dispatcher
    {server next : TcpServer} (sound : server.Sound) {index : Nat}
    {action : DispatcherStep}
    (performs : step server (.dispatcher index action) = some next) :
    next.Sound := by
  have performed : server.perform index action = some next ∧
      action.queued? = none := by
    cases action with
    | addSession id sock => cases performs
    | removeSession id => cases performs
    | onFrame => exact ⟨performs, rfl⟩
    | turn opened enabled => exact ⟨performs, rfl⟩
    | attached => exact ⟨performs, rfl⟩
  obtain ⟨dispatcher, after, found, stepped, rfl⟩ := perform_eq_some performed.1
  exact
    { serving := by
        rw [List.length_set]
        exact sound.serving
      generator := sound.generator
      numbers := sound.numbers
      distinct := sound.distinct
      each := by
        apply each_of_step sound found stepped
        · intro queued _ fed
          rw [performed.2, Option.toList_none, List.append_nil]
          exact fed
        · intro other queued _ fed
          exact fed }

/-- No connection is forgotten. -/
theorem accepted_isPrefix
    {server next : TcpServer} {action : TcpServerStep}
    (stepped : step server action = some next) :
    server.accepted <+: next.accepted := by
  cases action with
  | listenEventCallback sock =>
      simp only [step] at stepped
      split at stepped
      · cases stepped
      · obtain ⟨middle, performed, rfl⟩ := Option.map_eq_some_iff.mp stepped
        obtain ⟨_, _, _, _, rfl⟩ := perform_eq_some performed
        exact List.prefix_append _ _
  | dispatcher index step =>
      cases step with
      | addSession id sock => cases stepped
      | removeSession id => cases stepped
      | onFrame =>
          obtain ⟨_, _, _, _, rfl⟩ := perform_eq_some stepped
          exact List.prefix_refl _
      | turn opened enabled =>
          obtain ⟨_, _, _, _, rfl⟩ := perform_eq_some stepped
          exact List.prefix_refl _
      | attached =>
          obtain ⟨_, _, _, _, rfl⟩ := perform_eq_some stepped
          exact List.prefix_refl _
  | handleEvent index id =>
      simp only [step] at stepped
      split at stepped
      · cases stepped
      · split at stepped
        · obtain ⟨middle, performed, rfl⟩ := Option.map_eq_some_iff.mp stepped
          obtain ⟨_, _, _, _, rfl⟩ := perform_eq_some performed
          exact List.prefix_refl _
        · cases stepped

theorem sound_run
    {threads : UInt16} {actions : List TcpServerStep} {server : TcpServer}
    (ran : run step (create threads) actions = some server)
    (few : server.accepted.length < 2 ^ 64) : server.Sound := by
  have kept : server.accepted.length < 2 ^ 64 → server.Sound := by
    apply run_invariant _ _ ran
    · intro before action after sound stepped few
      have earlier := (accepted_isPrefix stepped).length_le
      have soundBefore := sound (Nat.lt_of_le_of_lt earlier few)
      cases action with
      | listenEventCallback sock => exact soundBefore.accept stepped few
      | dispatcher index step => exact soundBefore.dispatcher stepped
      | handleEvent index id => exact soundBefore.handleEvent stepped
    · exact fun _ => sound_create threads
  exact kept few

/-- Under all interleavings of the threads, the numbers are different, and a
session is at the dispatcher that its number says and belongs to the connection
with this number. -/
theorem sessions_of_run
    {threads : UInt16} {actions : List TcpServerStep} {server : TcpServer}
    (ran : run step (create threads) actions = some server)
    (few : server.accepted.length < 2 ^ 64) :
    (server.accepted.map Prod.fst).Nodup ∧
      ∀ index dispatcher, server.dispatchers[index]? = some dispatcher →
        ∀ (id : SessionId) session, dispatcher.sessions[id]? = some session →
          server.getSessionDispatcher id = index ∧
            ∃ sock, (id, sock) ∈ server.accepted ∧
              session = { id, bev := some sock } := by
  have sound := sound_run ran few
  refine ⟨sound.distinct, ?_⟩
  intro index dispatcher found id session present
  obtain ⟨queued, ordered, fed⟩ := sound.each index dispatcher found
  rw [ordered.table] at present
  obtain ⟨entry, listed, ⟨rfl, valid, _⟩, same⟩ :=
    Dispatcher.exists_adds_of_foldl_takeEffect present
  have inQueue : entry.1 ∈ queued := by
    rw [ordered.order]
    exact List.mem_append_left _ (List.mem_map_of_mem listed)
  obtain ⟨inAccepted, isMine⟩ := (fed.mem_iff entry.1.id valid).mp inQueue
  exact ⟨of_decide_eq_true isMine, entry.1.sock, inAccepted, same⟩

/-- Two connections at two dispatchers; the first one ends. -/
def twoConnections : List TcpServerStep :=
  [.listenEventCallback 5, .listenEventCallback 6, .dispatcher 1 .onFrame,
    .dispatcher 0 .onFrame, .dispatcher 1 (.turn true true),
    .dispatcher 1 .attached, .dispatcher 0 (.turn true true),
    .dispatcher 1 (.turn true true), .handleEvent 1 1, .dispatcher 0 .attached,
    .dispatcher 1 .onFrame, .dispatcher 1 (.turn true true),
    .dispatcher 0 (.turn true true), .dispatcher 1 (.turn true true)]

theorem sessions_of_run_twoConnections :
    ∃ server, run step (create 2) twoConnections = some server ∧
      (server.accepted.map Prod.fst).Nodup ∧
        ∀ index dispatcher, server.dispatchers[index]? = some dispatcher →
          ∀ (id : SessionId) session, dispatcher.sessions[id]? = some session →
            server.getSessionDispatcher id = index ∧
              ∃ sock, (id, sock) ∈ server.accepted ∧
                session = { id, bev := some sock } := by
  have ran : run step (create 2) twoConnections = some _ := rfl
  exact ⟨_, ran, sessions_of_run ran (by decide)⟩

/-- A session is added once. -/
theorem eq_of_adds
    {server : TcpServer} (sound : server.Sound) {mine : SessionId → Bool}
    {queued front middle back : List SessionAction} {first second : SessionAction}
    (fed : Fed mine server.accepted server.closed queued)
    (whole : queued = front ++ first :: (middle ++ second :: back))
    (firstValid : first.sock ≠ socketFdInvalid)
    (secondValid : second.sock ≠ socketFdInvalid) : first.id ≠ second.id := by
  have numbers : (queued.filter
      fun action => decide (action.sock ≠ socketFdInvalid)).map
        SessionAction.id =
          (server.accepted.filter fun entry => mine entry.1).map Prod.fst := by
    rw [fed.added, List.map_map]
    rfl
  have distinct : ((queued.filter
      fun action => decide (action.sock ≠ socketFdInvalid)).map
        SessionAction.id).Nodup := by
    rw [numbers]
    exact sound.distinct.sublist (List.filter_sublist.map Prod.fst)
  rw [whole, List.filter_append, List.filter_cons_of_pos (by simpa),
    List.filter_append, List.filter_cons_of_pos (by simpa), List.map_append,
    List.map_cons, List.map_append, List.map_cons] at distinct
  have later := (List.nodup_append.mp distinct).2.1
  intro same
  have notLater := (List.nodup_cons.mp later).1
  apply notLater
  rw [same]
  exact List.mem_append_right _ List.mem_cons_self

/-- A dispatcher that has nothing to do has the sessions that were attached and
are not closed. -/
theorem sessions_of_quiescent
    {threads : UInt16} {actions : List TcpServerStep} {server : TcpServer}
    (ran : run step (create threads) actions = some server)
    (few : server.accepted.length < 2 ^ 64) {index : Nat}
    {dispatcher : Dispatcher}
    (found : server.dispatchers[index]? = some dispatcher)
    (done : dispatcher.actions = []) (id : SessionId) :
    id ∈ dispatcher.sessions ↔
      id ∉ server.closed ∧
        ∃ sock, (id, sock) ∈ server.accepted ∧
          server.getSessionDispatcher id = index ∧
          (({ id, sock }, true) : SessionAction × Bool) ∈ dispatcher.handled := by
  have sound := sound_run ran few
  obtain ⟨queued, ordered, fed⟩ := sound.each index dispatcher found
  have order := ordered.order
  rw [done, List.append_nil] at order
  rw [ordered.table, Dispatcher.mem_foldl_takeEffect]
  constructor
  · intro latched
    obtain ⟨before, entry, after, whole, ⟨rfl, valid, attached⟩, noRemoval⟩ :=
      latched
    have split : queued = before.map Prod.fst ++ entry.1 :: after.map Prod.fst := by
      rw [order, whole, List.map_append, List.map_cons]
    have inQueue : entry.1 ∈ queued := by
      rw [split]
      simp
    obtain ⟨inAccepted, isMine⟩ := (fed.mem_iff entry.1.id valid).mp inQueue
    constructor
    · intro closed
      have inRemoved : entry.1.id ∈ server.closed.filter
          (mine server.dispatchers.length index) :=
        List.mem_filter.mpr ⟨closed, isMine⟩
      rw [← fed.removed] at inRemoved
      obtain ⟨removal, removalListed, sameId⟩ := List.mem_map.mp inRemoved
      obtain ⟨removalQueued, invalid⟩ := List.mem_filter.mp removalListed
      have isRemoval := of_decide_eq_true invalid
      rw [split] at removalQueued
      -- The removal is not behind the addition, so there was another one.
      rcases List.mem_append.mp removalQueued with early | late
      · obtain ⟨front, back, cut⟩ := List.append_of_mem early
        obtain ⟨other, otherListed, otherId, otherValid⟩ :=
          fed.order front removal (back ++ entry.1 :: after.map Prod.fst)
            (by rw [split, cut, List.append_assoc, List.cons_append]) isRemoval
        obtain ⟨first, rest, otherCut⟩ := List.append_of_mem otherListed
        apply eq_of_adds sound fed _ otherValid valid (otherId.trans sameId)
        · exact first
        · exact rest ++ removal :: back
        · exact after.map Prod.fst
        · rw [split, cut, otherCut]
          simp
      · rcases List.mem_cons.mp late with rfl | later
        · exact valid isRemoval
        · obtain ⟨handled, handledListed, rfl⟩ := List.mem_map.mp later
          exact noRemoval handled handledListed ⟨sameId, isRemoval⟩
    · refine ⟨entry.1.sock, inAccepted, of_decide_eq_true isMine, ?_⟩
      rw [whole]
      apply List.mem_append_right
      obtain ⟨action, result⟩ := entry
      cases attached
      exact List.mem_cons_self
  · intro both
    obtain ⟨notClosed, sock, inAccepted, here, listed⟩ := both
    obtain ⟨before, after, whole⟩ := List.append_of_mem listed
    have valid : sock ≠ socketFdInvalid := by
      intro invalid
      have inQueue : (⟨id, sock⟩ : SessionAction) ∈ queued := by
        rw [order]
        exact List.mem_map_of_mem listed
      have inRemoved : id ∈ (queued.filter
          fun action => action.sock = socketFdInvalid).map SessionAction.id :=
        List.mem_map_of_mem
          (List.mem_filter.mpr ⟨inQueue, decide_eq_true invalid⟩)
      rw [fed.removed] at inRemoved
      exact notClosed (List.mem_filter.mp inRemoved).1
    refine ⟨before, _, after, whole, ⟨rfl, valid, rfl⟩, ?_⟩
    intro later laterListed removes
    have inQueue : later.1 ∈ queued := by
      rw [order, whole]
      apply List.mem_map_of_mem
      exact List.mem_append_right _ (List.mem_cons_of_mem _ laterListed)
    have inRemoved : later.1.id ∈ (queued.filter
        fun action => action.sock = socketFdInvalid).map SessionAction.id :=
      List.mem_map_of_mem
        (List.mem_filter.mpr ⟨inQueue, decide_eq_true removes.2⟩)
    rw [fed.removed, removes.1] at inRemoved
    exact notClosed (List.mem_filter.mp inRemoved).1

theorem sessions_of_quiescent_twoConnections :
    ∃ server dispatcher, run step (create 2) twoConnections = some server ∧
      server.dispatchers[1]? = some dispatcher ∧
        ((1 : SessionId) ∈ dispatcher.sessions ↔
          1 ∉ server.closed ∧
            ∃ sock, ((1 : SessionId), sock) ∈ server.accepted ∧
              server.getSessionDispatcher 1 = 1 ∧
              (({ id := 1, sock }, true) : SessionAction × Bool) ∈
                dispatcher.handled) := by
  have ran : run step (create 2) twoConnections = some _ := rfl
  exact ⟨_, _, ran, rfl, sessions_of_quiescent ran (by decide) rfl rfl 1⟩

end TcpServer

end Translib

end DBWrapper
