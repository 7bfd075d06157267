import Mathlib.Data.List.Infix
import DBWrapper.Foundation.Lifetime
import DBWrapper.Translib.Dispatcher

/-!
# The descriptors of the TCP client

`connect` creates its bufferevent with `BEV_OPT_CLOSE_ON_FREE`, so that
`bufferevent_free` closes the descriptor, and `handleEvent` closes it by itself
before it frees the bufferevent.  In between it calls `onDisconnected`, and
everybody else goes on opening and closing descriptors: the kernel gives a
number out again as soon as it has been closed.
-/

namespace DBWrapper

namespace Translib

open Foundation

/-- Who has opened a descriptor: the client, or any other part of the
process. -/
inductive FdOwner where
  | client
  | other
  deriving DecidableEq, Repr

inductive FdEvent where
  | opened (owner : FdOwner) (fd : SocketFd)
  | closed (owner : FdOwner) (fd : SocketFd)
  deriving DecidableEq, Repr

namespace FdEvent

def owner : FdEvent → FdOwner
  | .opened owner _ => owner
  | .closed owner _ => owner

/-- The owner of the number behind the event, given the one before it. -/
def holder (fd : SocketFd) (owner : Option FdOwner) :
    FdEvent → Option FdOwner
  | .opened opener other => if other = fd then some opener else owner
  | .closed _ other => if other = fd then none else owner

end FdEvent

/-- Who owns a number; nobody does while the number is closed. -/
def fdHolder (history : List FdEvent) (fd : SocketFd) : Option FdOwner :=
  history.foldl (FdEvent.holder fd) none

/-- The descriptors of the client, as its history tells them: a close uses a
descriptor, and ends it. -/
def descriptorLifetime : Lifetime FdEvent SocketFd where
  creates
    | .opened .client fd, resource => fd = resource
    | _, _ => False
  uses
    | .closed .client fd, resource => fd = resource
    | _, _ => False
  frees
    | .closed _ fd, resource => fd = resource
    | _, _ => False

/-- The client closes no number twice without having obtained it again in
between, and none that is not its own. -/
structure ClosesOnce (history : List FdEvent) : Prop where
  once : ∀ before between after fd,
    history =
        before ++ .closed .client fd ::
          (between ++ .closed .client fd :: after) →
      .opened .client fd ∈ between
  own : descriptorLifetime.Safe history

/-- The part of a bufferevent that decides about its descriptor. -/
structure SocketBev where
  fd : SocketFd
  closeOnFree : Bool
  deriving DecidableEq, Repr

structure TcpClient where
  bev : Option SocketBev
  isConnected : Bool
  deriving DecidableEq, Repr

/-- What `bufferevent_socket_connect` does: it fails, before or after it has
given the bufferevent a descriptor, or it goes on connecting. -/
inductive SocketConnect where
  | failed (fd : Option SocketFd)
  | connecting (fd : SocketFd)
  deriving DecidableEq, Repr

/-- What the rest of the process does. -/
inductive OtherAction where
  | opens (fd : SocketFd)
  | closes (fd : SocketFd)
  deriving DecidableEq, Repr

inductive ClientAction where
  | connect (created enabled : Bool) (outcome : SocketConnect)
  /-- The event callback.  `meanwhile` happens in `onDisconnected`. -/
  | event (events : UInt16) (socketError : Int) (meanwhile : List OtherAction)
  | other (action : OtherAction)
  | destroy
  deriving DecidableEq, Repr

def bevEventEof : UInt16 := 0x10

def bevEventError : UInt16 := 0x20

def bevEventTimeout : UInt16 := 0x40

def bevEventConnected : UInt16 := 0x80

def etimedout : Int := 110

def econnrefused : Int := 111

/-- The flags that make `handleEvent` give the connection up. -/
def disconnects (events : UInt16) : Bool :=
  events &&& (bevEventEof ||| bevEventError ||| bevEventTimeout) ≠ 0

/-- A client, `none` once it has been destroyed, and what has happened to the
descriptors of the process. -/
structure ClientSystem where
  client : Option TcpClient
  history : List FdEvent
  deriving DecidableEq, Repr

namespace ClientSystem

/-- The constructor. -/
def create : ClientSystem :=
  { client := some { bev := none, isConnected := false }, history := [] }

def log (system : ClientSystem) (event : FdEvent) : ClientSystem :=
  { system with history := system.history ++ [event] }

def setClient (system : ClientSystem) (client : TcpClient) : ClientSystem :=
  { system with client := some client }

/-- The kernel gives out a number that is closed. -/
def obtain (system : ClientSystem) (owner : FdOwner) (fd : SocketFd) :
    Option ClientSystem :=
  if 0 ≤ fd ∧ fdHolder system.history fd = none then
    some (system.log (.opened owner fd))
  else
    none

def evutilClosesocket (system : ClientSystem) (fd : SocketFd) :
    ClientSystem :=
  system.log (.closed .client fd)

def buffereventFree (system : ClientSystem) (bev : SocketBev) :
    ClientSystem :=
  if bev.closeOnFree && decide (0 ≤ bev.fd) then
    system.evutilClosesocket bev.fd
  else
    system

/-- `connect` from `bufferevent_socket_connect` on. -/
def socketConnect (system : ClientSystem) (client : TcpClient)
    (bev : SocketBev) : SocketConnect → Option (Bool × ClientSystem)
  | .failed none => some (false, system.buffereventFree bev)
  | .failed (some fd) =>
      (system.obtain .client fd).map fun system =>
        (false, system.buffereventFree { bev with fd })
  | .connecting fd =>
      (system.obtain .client fd).map fun system =>
        (true, system.setClient { client with bev := some { bev with fd } })

/-- `created` and `enabled` are whether `bufferevent_socket_new` and
`bufferevent_enable` succeed. -/
def connect (system : ClientSystem) (client : TcpClient)
    (created enabled : Bool) (outcome : SocketConnect) :
    Option (Bool × ClientSystem) :=
  match client.bev with
  | some _ => some (false, system)
  | none =>
      if !created then
        some (false, system)
      else
        let bev : SocketBev := { fd := socketFdInvalid, closeOnFree := true }
        if !enabled then
          some (false, system.buffereventFree bev)
        else
          system.socketConnect client bev outcome

/-- The others close only what they have opened. -/
def otherStep (system : ClientSystem) : OtherAction → Option ClientSystem
  | .opens fd => system.obtain .other fd
  | .closes fd =>
      if fdHolder system.history fd = some .other then
        some (system.log (.closed .other fd))
      else
        none

/-- A `connect` out of `onDisconnected` finds the bufferevent still there and
does nothing. -/
def handleEvent (system : ClientSystem) (client : TcpClient) (bev : SocketBev)
    (events : UInt16) (socketError : Int) (meanwhile : List OtherAction) :
    Option ClientSystem :=
  if disconnects events then
    (run otherStep (system.evutilClosesocket bev.fd) meanwhile).map
      fun system =>
        (system.buffereventFree bev).setClient
          { bev := none, isConnected := false }
  else if events &&& bevEventConnected ≠ 0 then
    if socketError ≠ econnrefused ∧ socketError ≠ etimedout then
      some (system.setClient { client with isConnected := true })
    else
      some system
  else
    some system

/-- `~TcpSocket`. -/
def destroy (system : ClientSystem) (client : TcpClient) : ClientSystem :=
  match client.bev with
  | none => { system with client := none }
  | some bev => { system.buffereventFree bev with client := none }

/-- libevent calls back as long as there is a bufferevent. -/
def step (system : ClientSystem) : ClientAction → Option ClientSystem
  | .connect created enabled outcome =>
      system.client.bind fun client =>
        (system.connect client created enabled outcome).map Prod.snd
  | .event events socketError meanwhile =>
      system.client.bind fun client =>
        client.bev.bind fun bev =>
          system.handleEvent client bev events socketError meanwhile
  | .other action => system.otherStep action
  | .destroy => system.client.map system.destroy

end ClientSystem

/-- An event callback with EOF, error or timeout. -/
def ClientAction.Disconnects : ClientAction → Prop
  | .event events _ _ => disconnects events = true
  | _ => False

/-! ### Owners of descriptors -/

theorem fdHolder_append_singleton
    (history : List FdEvent) (last : FdEvent) (fd : SocketFd) :
    fdHolder (history ++ [last]) fd =
      last.holder fd (fdHolder history fd) := by
  simp [fdHolder, List.foldl_append]

/-- The client's own descriptors are alive. -/
theorem live_of_fdHolder
    {history : List FdEvent} {fd : SocketFd}
    (held : fdHolder history fd = some .client) :
    descriptorLifetime.Live history fd := by
  induction history using List.reverseRecOn with
  | nil => cases held
  | append_singleton history last induction =>
      rw [fdHolder_append_singleton] at held
      apply Lifetime.live_append_singleton.mpr
      cases last with
      | opened owner other =>
          by_cases same : other = fd
          · rw [FdEvent.holder, if_pos same] at held
            cases held
            exact .inl same
          · rw [FdEvent.holder, if_neg same] at held
            exact .inr ⟨induction held, id⟩
      | closed owner other =>
          by_cases same : other = fd
          · rw [FdEvent.holder, if_pos same] at held
            cases held
          · rw [FdEvent.holder, if_neg same] at held
            exact .inr ⟨induction held, same⟩

/-- Descriptors that are used while they are alive are closed once. -/
theorem closesOnce_of_safe
    {history : List FdEvent} (safe : descriptorLifetime.Safe history) :
    ClosesOnce history := by
  refine ⟨?_, safe⟩
  intro before between after fd whole
  obtain ⟨event, listed, creates⟩ :=
    safe.exists_creates_between whole rfl id (rfl : fd = fd)
  cases event with
  | opened owner other =>
      cases owner with
      | client =>
          have same : other = fd := creates
          rw [← same]
          exact listed
      | other => exact creates.elim
  | closed owner other => exact creates.elim

theorem ClosesOnce.of_append
    {history more : List FdEvent} (closes : ClosesOnce (history ++ more)) :
    ClosesOnce history := by
  refine ⟨?_, closes.own.of_append⟩
  intro before between after fd whole
  apply closes.once before between (after ++ more) fd
  rw [whole]
  simp

namespace ClientSystem

def bev (system : ClientSystem) : Option SocketBev :=
  system.client.bind TcpClient.bev

/-- The descriptor of the bufferevent belongs to the client, and is closed
with the bufferevent. -/
def Held (system : ClientSystem) : Prop :=
  ∀ bev, system.bev = some bev →
    0 ≤ bev.fd ∧ bev.closeOnFree = true ∧
      fdHolder system.history bev.fd = some .client

/-- All that a step may do to the descriptors. -/
inductive Effect (system : ClientSystem) (action : ClientAction)
    (next : ClientSystem) : Prop where
  | kept (calm : ¬ action.Disconnects) (bev : next.bev = system.bev)
      (history : next.history = system.history)
  | failed (calm : ¬ action.Disconnects) (fd : SocketFd)
      (bev : next.bev = none)
      (history : next.history =
        system.history ++ [.opened .client fd] ++ [.closed .client fd])
  | connected (calm : ¬ action.Disconnects) (fd : SocketFd) (valid : 0 ≤ fd)
      (bev : next.bev = some { fd, closeOnFree := true })
      (history : next.history = system.history ++ [.opened .client fd])
  | disconnected (disconnects : action.Disconnects) (fd : SocketFd)
      (others : List FdEvent) (owned : ∀ event ∈ others, event.owner = .other)
      (bev : next.bev = none)
      (history : next.history = system.history ++
        .closed .client fd :: (others ++ .closed .client fd :: []))
  | closed (calm : ¬ action.Disconnects) (bev : SocketBev)
      (attached : system.bev = some bev) (detached : next.bev = none)
      (history : next.history = system.history ++ [.closed .client bev.fd])
  | other (calm : ¬ action.Disconnects) (event : FdEvent)
      (owned : event.owner = .other)
      (spares : ∀ fd, fdHolder system.history fd = some .client →
        event.holder fd (some .client) = some .client)
      (bev : next.bev = system.bev)
      (history : next.history = system.history ++ [event])

/-! ### What one step does -/

theorem of_obtain
    {system next : ClientSystem} {owner : FdOwner} {fd : SocketFd}
    (obtained : system.obtain owner fd = some next) :
    0 ≤ fd ∧ fdHolder system.history fd = none ∧
      next = system.log (.opened owner fd) := by
  simp only [obtain] at obtained
  split at obtained
  · rename_i free
    exact ⟨free.1, free.2, (Option.some.inj obtained).symm⟩
  · cases obtained

theorem buffereventFree_of_valid
    (system : ClientSystem) {bev : SocketBev} (valid : 0 ≤ bev.fd)
    (closes : bev.closeOnFree = true) :
    system.buffereventFree bev = system.log (.closed .client bev.fd) := by
  simp [buffereventFree, evutilClosesocket, valid, closes]

theorem buffereventFree_of_invalid
    (system : ClientSystem) (closeOnFree : Bool) :
    system.buffereventFree { fd := socketFdInvalid, closeOnFree } =
      system := by
  simp [buffereventFree, socketFdInvalid]

theorem of_otherStep
    {system next : ClientSystem} {action : OtherAction}
    (stepped : system.otherStep action = some next) :
    ∃ event : FdEvent, event.owner = .other ∧
      (∀ fd, fdHolder system.history fd = some .client →
        event.holder fd (some .client) = some .client) ∧
      next = system.log event := by
  cases action with
  | opens fd =>
      obtain ⟨_, free, logged⟩ := of_obtain stepped
      refine ⟨.opened .other fd, rfl, ?_, logged⟩
      intro other held
      apply if_neg
      intro same
      rw [← same, free] at held
      cases held
  | closes fd =>
      simp only [otherStep] at stepped
      split at stepped
      · rename_i own
        refine ⟨.closed .other fd, rfl, ?_, (Option.some.inj stepped).symm⟩
        intro other held
        apply if_neg
        intro same
        rw [← same, own] at held
        cases held
      · cases stepped

theorem of_run_otherStep
    {system next : ClientSystem} {actions : List OtherAction}
    (ran : run otherStep system actions = some next) :
    ∃ others : List FdEvent, (∀ event ∈ others, event.owner = .other) ∧
      next.history = system.history ++ others := by
  induction actions generalizing system with
  | nil =>
      cases ran
      exact ⟨[], by simp⟩
  | cons action actions induction =>
      obtain ⟨middle, stepped, rest⟩ := run_cons_eq_some_iff.mp ran
      obtain ⟨event, owned, _, logged⟩ := of_otherStep stepped
      obtain ⟨others, ownedOthers, history⟩ := induction rest
      refine ⟨event :: others, List.forall_mem_cons.mpr ⟨owned, ownedOthers⟩,
        ?_⟩
      rw [history, logged, log, List.append_assoc]
      rfl

theorem effect_connect
    {system next : ClientSystem} {client : TcpClient}
    (alive : system.client = some client) {created enabled : Bool}
    {outcome : SocketConnect} {result : Bool}
    (connects : system.connect client created enabled outcome =
      some (result, next)) :
    Effect system (.connect created enabled outcome) next := by
  have calm : ¬ (ClientAction.connect created enabled outcome).Disconnects :=
    id
  have unchanged : next = system →
      Effect system (.connect created enabled outcome) next := by
    intro same
    rw [same]
    exact .kept calm rfl rfl
  simp only [connect] at connects
  split at connects
  · cases connects
    exact unchanged rfl
  · rename_i detached
    have noBev : system.bev = none := by
      rw [bev, alive]
      exact detached
    split at connects
    · cases connects
      exact unchanged rfl
    · split at connects
      · rw [buffereventFree_of_invalid] at connects
        cases connects
        exact unchanged rfl
      · cases outcome with
        | failed fd =>
            cases fd with
            | none =>
                simp only [socketConnect] at connects
                rw [buffereventFree_of_invalid] at connects
                cases connects
                exact unchanged rfl
            | some fd =>
                obtain ⟨middle, obtained, result⟩ :=
                  Option.map_eq_some_iff.mp connects
                obtain ⟨valid, _, logged⟩ := of_obtain obtained
                cases result
                rw [buffereventFree_of_valid _ valid rfl, logged]
                exact .failed calm fd noBev rfl
        | connecting fd =>
            obtain ⟨middle, obtained, result⟩ :=
              Option.map_eq_some_iff.mp connects
            obtain ⟨valid, _, logged⟩ := of_obtain obtained
            cases result
            rw [logged]
            exact .connected calm fd valid rfl rfl

theorem effect_handleEvent
    {system next : ClientSystem} {client : TcpClient} {bev : SocketBev}
    (alive : system.client = some client)
    (valid : 0 ≤ bev.fd) (closes : bev.closeOnFree = true)
    {events : UInt16} {socketError : Int} {meanwhile : List OtherAction}
    (handles : system.handleEvent client bev events socketError meanwhile =
      some next) :
    Effect system (.event events socketError meanwhile) next := by
  simp only [handleEvent] at handles
  split at handles
  · rename_i disconnects
    obtain ⟨middle, ran, result⟩ := Option.map_eq_some_iff.mp handles
    obtain ⟨others, owned, history⟩ := of_run_otherStep ran
    rw [buffereventFree_of_valid _ valid closes] at result
    cases result
    refine .disconnected disconnects bev.fd others owned rfl ?_
    simp only [setClient, log]
    rw [history]
    simp [evutilClosesocket, log]
  · rename_i calm
    have kept : next.bev = system.bev ∧ next.history = system.history := by
      split at handles
      · split at handles
        · cases handles
          refine ⟨?_, rfl⟩
          rw [ClientSystem.bev, ClientSystem.bev, alive]
          rfl
        · cases handles
          exact ⟨rfl, rfl⟩
      · cases handles
        exact ⟨rfl, rfl⟩
    exact .kept calm kept.1 kept.2

/-- Every step is one of the effects. -/
theorem effect_step
    {system next : ClientSystem} {action : ClientAction}
    (held : system.Held) (stepped : step system action = some next) :
    Effect system action next := by
  cases action with
  | connect created enabled outcome =>
      obtain ⟨client, alive, connects⟩ := Option.bind_eq_some_iff.mp stepped
      obtain ⟨⟨result, after⟩, connected, same⟩ :=
        Option.map_eq_some_iff.mp connects
      cases same
      exact effect_connect alive connected
  | event events socketError meanwhile =>
      obtain ⟨client, alive, handles⟩ := Option.bind_eq_some_iff.mp stepped
      obtain ⟨bev, attached, handles⟩ := Option.bind_eq_some_iff.mp handles
      have here : system.bev = some bev := by
        rw [ClientSystem.bev, alive]
        exact attached
      obtain ⟨valid, closes, _⟩ := held bev here
      exact effect_handleEvent alive valid closes handles
  | other action =>
      obtain ⟨event, owned, spares, logged⟩ := of_otherStep stepped
      rw [logged]
      exact .other id event owned spares rfl rfl
  | destroy =>
      obtain ⟨client, alive, destroyed⟩ := Option.map_eq_some_iff.mp stepped
      cases attached : client.bev with
      | none =>
          simp only [destroy, attached] at destroyed
          rw [← destroyed]
          refine .kept id ?_ rfl
          rw [ClientSystem.bev, ClientSystem.bev, alive]
          exact attached.symm
      | some bev =>
          have here : system.bev = some bev := by
            rw [ClientSystem.bev, alive]
            exact attached
          obtain ⟨valid, closes, _⟩ := held bev here
          simp only [destroy, attached,
            buffereventFree_of_valid _ valid closes] at destroyed
          rw [← destroyed]
          exact .closed id bev here rfl rfl

/-! ### Runs -/

theorem Held.step
    {system next : ClientSystem} {action : ClientAction} (held : system.Held)
    (stepped : ClientSystem.step system action = some next) : next.Held := by
  intro bev attached
  cases effect_step held stepped with
  | kept _ same history =>
      rw [same] at attached
      rw [history]
      exact held bev attached
  | failed _ _ detached _ =>
      rw [detached] at attached
      cases attached
  | connected _ fd valid connected history =>
      rw [connected] at attached
      cases attached
      refine ⟨valid, rfl, ?_⟩
      rw [history, fdHolder_append_singleton]
      exact if_pos rfl
  | disconnected _ _ _ _ detached _ =>
      rw [detached] at attached
      cases attached
  | closed _ _ _ detached _ =>
      rw [detached] at attached
      cases attached
  | other _ event _ spares same history =>
      rw [same] at attached
      obtain ⟨valid, closes, own⟩ := held bev attached
      refine ⟨valid, closes, ?_⟩
      rw [history, fdHolder_append_singleton, own]
      exact spares bev.fd own

/-- As long as no event makes the client close by itself, it closes what it
owns. -/
theorem safe_step
    {system next : ClientSystem} {action : ClientAction} (held : system.Held)
    (safe : descriptorLifetime.Safe system.history)
    (calm : ¬ action.Disconnects) (stepped : step system action = some next) :
    descriptorLifetime.Safe next.history := by
  cases effect_step held stepped with
  | kept _ _ history =>
      rw [history]
      exact safe
  | failed _ fd _ history =>
      rw [history]
      apply Lifetime.safe_append_singleton.mpr
      constructor
      · apply Lifetime.safe_append_singleton.mpr
        exact ⟨safe, fun _ uses => uses.elim⟩
      · intro other uses
        apply Lifetime.live_append_singleton.mpr
        exact .inl uses
  | connected _ fd _ _ history =>
      rw [history]
      apply Lifetime.safe_append_singleton.mpr
      exact ⟨safe, fun _ uses => uses.elim⟩
  | disconnected disconnects _ _ _ _ _ => exact (calm disconnects).elim
  | closed _ bev attached _ history =>
      rw [history]
      apply Lifetime.safe_append_singleton.mpr
      refine ⟨safe, ?_⟩
      intro other uses
      have same : bev.fd = other := uses
      rw [← same]
      exact live_of_fdHolder (held bev attached).2.2
  | other _ event owned _ _ history =>
      rw [history]
      apply Lifetime.safe_append_singleton.mpr
      refine ⟨safe, ?_⟩
      intro other uses
      cases event with
      | opened owner fd => exact uses.elim
      | closed owner fd =>
          have foreign : owner = .other := owned
          subst foreign
          exact uses.elim

theorem history_step
    {system next : ClientSystem} {action : ClientAction} (held : system.Held)
    (stepped : step system action = some next) :
    system.history <+: next.history := by
  cases effect_step held stepped with
  | kept _ _ history =>
      rw [history]
  | failed _ _ _ history =>
      rw [history, List.append_assoc]
      exact List.prefix_append _ _
  | connected _ _ _ _ history =>
      rw [history]
      exact List.prefix_append _ _
  | disconnected _ _ _ _ _ history =>
      rw [history]
      exact List.prefix_append _ _
  | closed _ _ _ _ history =>
      rw [history]
      exact List.prefix_append _ _
  | other _ _ _ _ _ history =>
      rw [history]
      exact List.prefix_append _ _

/-- A step keeps the closes right exactly if it is no event that disconnects. -/
theorem closesOnce_step
    {system next : ClientSystem} {action : ClientAction} (held : system.Held)
    (stepped : step system action = some next) :
    ClosesOnce next.history ↔
      ClosesOnce system.history ∧ ¬ action.Disconnects := by
  constructor
  · intro closes
    obtain ⟨more, grown⟩ := history_step held stepped
    rw [← grown] at closes
    refine ⟨closes.of_append, ?_⟩
    intro disconnects
    cases effect_step held stepped with
    | disconnected _ fd others owned _ history =>
        rw [grown, history] at closes
        have again := owned _ (closes.once system.history others [] fd rfl)
        cases again
    | kept calm _ _ => exact calm disconnects
    | failed calm _ _ _ => exact calm disconnects
    | connected calm _ _ _ _ => exact calm disconnects
    | closed calm _ _ _ _ => exact calm disconnects
    | other calm _ _ _ _ _ => exact calm disconnects
  · intro both
    obtain ⟨closes, calm⟩ := both
    exact closesOnce_of_safe (safe_step held closes.own calm stepped)

/-- In a run the client closes each of its descriptors once, and no other,
exactly if no event of the run disconnects it. -/
theorem closesOnce_iff
    {actions : List ClientAction} {final : ClientSystem}
    (ran : run step create actions = some final) :
    ClosesOnce final.history ↔ ∀ action ∈ actions, ¬ action.Disconnects := by
  have initial : create.Held := by
    intro bev attached
    cases attached
  have nothing : ClosesOnce create.history :=
    closesOnce_of_safe (Lifetime.safe_nil descriptorLifetime)
  have exactly : ClosesOnce final.history ↔ ClosesOnce create.history ∧
      AllSteps step (fun _ action => ¬ action.Disconnects) create actions :=
    @run_iff_allSteps _ _ _ _ Held (fun system => ClosesOnce system.history)
      (fun _ _ _ held stepped => held.step stepped)
      (fun _ _ _ held stepped => closesOnce_step held stepped) _ _ _ initial
      ran
  rw [exactly, and_iff_right nothing, allSteps_iff_forall_mem ran]

theorem closesOnce_iff_connected :
    ∃ final : ClientSystem,
      run step create
        [.connect true true (.failed (some 4)), .other (.opens 4),
          .connect true true (.connecting 5), .event 0x80 0 [],
          .destroy, .other (.opens 5)] = some final ∧
      (ClosesOnce final.history ↔
        ∀ action ∈ [.connect true true (.failed (some 4)), .other (.opens 4),
            .connect true true (.connecting 5), .event 0x80 0 [],
            .destroy, .other (.opens 5)],
          ¬ ClientAction.Disconnects action) := by
  have ran : run step create
      [.connect true true (.failed (some 4)), .other (.opens 4),
        .connect true true (.connecting 5), .event 0x80 0 [],
        .destroy, .other (.opens 5)] = some _ := rfl
  exact ⟨_, ran, closesOnce_iff ran⟩

/-- The server hangs up; in `onDisconnected` another connection gets the
number, and the client closes it. -/
theorem closesOnce_fails :
    ∃ final : ClientSystem,
      run step create
        [.connect true true (.connecting 5), .event 0x10 0 [.opens 5]] =
          some final ∧
      final.history =
        [.opened .client 5, .closed .client 5, .opened .other 5,
          .closed .client 5] ∧
      ¬ ClosesOnce final.history := by
  refine ⟨_, rfl, rfl, ?_⟩
  intro closes
  have again := closes.once [.opened .client 5] [.opened .other 5] [] 5 rfl
  cases List.mem_singleton.mp again

end ClientSystem

end Translib

end DBWrapper
