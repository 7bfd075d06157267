import DBWrapper.Translib.Callbacks

/-!
# The polls of a service discovery

The constructor of `serviceDiscovery` takes a timer from the manager that the
whole process shares and starts it forever, with a closure that captures the
object.  The destructor only gives up the pointer to the timer: the entry of
`t_map` keeps the timer alive, and an audit erases the entry when the timer has
used up its rounds.
-/

namespace DBWrapper

open Foundation Translib

/-- What the timers of the shared manager call: a poll for the object that the
closure has captured, or a function of another user. -/
inductive PollHandler (Handler : Type) where
  | getConnInfo (discovery : Nat)
  | other (handler : Handler)
  deriving DecidableEq, Repr

/-- `alive` is whether the object has not been destroyed when its
`getConnInfo` is called. -/
structure Poll where
  discovery : Nat
  alive : Bool
  deriving DecidableEq, Repr

/-- The objects are numbered in the order of their construction:
`discoveries` has the timer of each of them. -/
structure DiscoverySystem (Handler : Type) where
  manager : TimerManager (PollHandler Handler)
  discoveries : List Nat
  destroyed : Nat → Bool
  polls : List Poll

inductive DiscoveryAction (Handler : Type) where
  | construct
  | destroy (discovery : Nat)
  /-- A call of the shared manager or of one of its timers by anybody else, an
  audit, or the expiration of any timer. -/
  | timer (action : TimerAction Handler)
  deriving DecidableEq, Repr

/-- The same action with handlers of another type. -/
def mapHandler {Handler Callback : Type} (inject : Handler → Callback) :
    TimerAction Handler → TimerAction Callback
  | .getTimer => .getTimer
  | .startOnce ref interval handler => .startOnce ref interval (inject handler)
  | .startRounds ref interval round handler =>
      .startRounds ref interval round (inject handler)
  | .startForever ref interval handler =>
      .startForever ref interval (inject handler)
  | .startAfter ref after interval round handler =>
      .startAfter ref after interval round (inject handler)
  | .expire ref => .expire ref
  | .stop ref => .stop ref
  | .release ref => .release ref
  | .killTimer timerID => .killTimer timerID
  | .auditTimer => .auditTimer

namespace DiscoverySystem

variable {Handler : Type}

/-- `serviceDiscovery::interval`, in milliseconds. -/
def interval : UInt32 := 5000

/-- The manager is `TimerManager::instance()`. -/
def create : DiscoverySystem Handler :=
  { manager := TimerManager.create 1, discoveries := [],
    destroyed := fun _ => false, polls := [] }

/-- Other users start and give up the timers only that they have got
themselves. -/
def allows (system : DiscoverySystem Handler) : TimerAction Handler → Bool
  | .startOnce ref _ _ => !system.discoveries.contains ref
  | .startRounds ref _ _ _ => !system.discoveries.contains ref
  | .startForever ref _ _ => !system.discoveries.contains ref
  | .startAfter ref _ _ _ _ => !system.discoveries.contains ref
  | .release ref => !system.discoveries.contains ref
  | _ => true

/-- The poll that the action makes. -/
def pollOf (system : DiscoverySystem Handler) :
    TimerAction Handler → List Poll
  | .expire ref =>
      match (system.manager.timers ref).expire true true with
      | some (_, some (.getConnInfo discovery)) =>
          [{ discovery, alive := !system.destroyed discovery }]
      | _ => []
  | _ => []

def step (system : DiscoverySystem Handler) :
    DiscoveryAction Handler → Option (DiscoverySystem Handler)
  | .construct =>
      let timer := system.manager.issued.length
      let poll := PollHandler.getConnInfo system.discoveries.length
      (run TimerManager.step system.manager
          [.getTimer, .startForever timer interval poll]).map fun manager =>
        { system with
          manager, discoveries := system.discoveries ++ [timer] }
  | .destroy discovery =>
      match system.discoveries[discovery]? with
      | none => none
      | some timer =>
          if system.destroyed discovery then
            none
          else
            (system.manager.step (.release timer)).map fun manager =>
              { system with
                manager
                destroyed := Function.update system.destroyed discovery true }
  | .timer action =>
      if system.allows action then
        (system.manager.step (mapHandler .other action)).map fun manager =>
          { system with
            manager, polls := system.polls ++ system.pollOf action }
      else
        none

/-- No poll has been made for an object behind its destructor. -/
def PollsAlive (system : DiscoverySystem Handler) : Prop :=
  ∀ poll ∈ system.polls, poll.alive = true

/-- No poll has been made for a destroyed object, and the next step makes
none. -/
def NoStalePoll (system : DiscoverySystem Handler) : Prop :=
  system.PollsAlive ∧
    ∀ action next, step system action = some next → next.PollsAlive

/-- An object that is destroyed has a timer that is not armed any more, or one
that the manager does not list. -/
def DestroysSilent (system : DiscoverySystem Handler) :
    DiscoveryAction Handler → Prop
  | .destroy discovery =>
      ∀ timer, system.discoveries[discovery]? = some timer →
        (system.manager.timers timer).Armed →
          ∀ entry ∈ system.manager.tMap, entry.2 ≠ timer
  | _ => True

end DiscoverySystem

/-! ### Timers and their objects -/

theorem not_passes_mapHandler
    {Handler : Type} {action : TimerAction Handler} {ref discovery : Nat} :
    ¬ (mapHandler PollHandler.other action).Passes ref
      (.getConnInfo discovery) := by
  intro passes
  cases action <;> cases passes <;> contradiction

namespace DiscoverySystem

variable {Handler : Type} {system next : DiscoverySystem Handler}

/-- The callback polls for the object that the timer belongs to, if for
any. -/
def Owns (discoveries : List Nat) (ref : Nat)
    (callback : PollHandler Handler) : Prop :=
  ∀ discovery, callback = .getConnInfo discovery →
    discoveries[discovery]? = some ref

/-- Every object has a timer of its own that polls for it, and holds it until
it is destroyed; no other timer polls for an object. -/
structure Sound (system : DiscoverySystem Handler) : Prop where
  reached : ∃ actions,
    run TimerManager.step (TimerManager.create 1) actions =
      some system.manager
  issued : ∀ discovery ref : Nat, system.discoveries[discovery]? = some ref →
    ref < system.manager.issued.length
  polls : ∀ discovery ref : Nat, system.discoveries[discovery]? = some ref →
    (system.manager.timers ref).handler =
      some (.call (.getConnInfo discovery))
  owners : ∀ ref,
    (system.manager.timers ref).CallsOnly (Owns system.discoveries ref)
  held : ∀ discovery ref : Nat, system.discoveries[discovery]? = some ref →
    system.manager.held ref = !system.destroyed discovery
  constructed : ∀ discovery, system.destroyed discovery = true →
    discovery < system.discoveries.length

/-- The timers of the destroyed objects are disarmed. -/
def Quiet (system : DiscoverySystem Handler) : Prop :=
  ∀ discovery ref : Nat, system.discoveries[discovery]? = some ref →
    system.destroyed discovery = true →
      (system.manager.timers ref).event = none

theorem Sound.ready (sound : system.Sound) (ref : Nat) :
    (system.manager.timers ref).Ready := by
  obtain ⟨actions, ran⟩ := sound.reached
  exact TimerManager.ready_run ran ref

/-- Different objects have different timers. -/
theorem Sound.injective
    (sound : system.Sound) {left right ref : Nat}
    (first : system.discoveries[left]? = some ref)
    (second : system.discoveries[right]? = some ref) : left = right := by
  have same := sound.polls left ref first
  rw [sound.polls right ref second] at same
  cases same
  rfl

theorem reached_step
    {manager after : TimerManager (PollHandler Handler)}
    {action : TimerAction (PollHandler Handler)}
    (reached : ∃ actions,
      run TimerManager.step (TimerManager.create 1) actions = some manager)
    (stepped : manager.step action = some after) :
    ∃ actions,
      run TimerManager.step (TimerManager.create 1) actions = some after := by
  obtain ⟨actions, ran⟩ := reached
  exact ⟨actions ++ [action], run_append_singleton ran stepped⟩

/-- What the allowed actions of others leave alone. -/
theorem allows_spares
    {action : TimerAction Handler} (allowed : system.allows action = true)
    {discovery ref : Nat} (own : system.discoveries[discovery]? = some ref) :
    ¬ (mapHandler PollHandler.other action).Starts ref ∧
      mapHandler PollHandler.other action ≠ .release ref := by
  have listed : ref ∈ system.discoveries := List.mem_of_getElem? own
  have others : ∀ other : Nat,
      (!system.discoveries.contains other) = true → other ≠ ref := by
    intro other foreign same
    subst same
    simp [listed] at foreign
  cases action with
  | startOnce other interval handler =>
      exact ⟨others other allowed, by simp [mapHandler]⟩
  | startRounds other interval round handler =>
      exact ⟨others other allowed, by simp [mapHandler]⟩
  | startForever other interval handler =>
      exact ⟨others other allowed, by simp [mapHandler]⟩
  | startAfter other after interval round handler =>
      exact ⟨others other allowed, by simp [mapHandler]⟩
  | release other =>
      refine ⟨id, ?_⟩
      intro same
      exact others other allowed (TimerAction.release.inj same)
  | _ => exact ⟨id, by simp [mapHandler]⟩

/-! ### What one step does -/

theorem of_construct (stepped : step system .construct = some next) :
    ∃ middle after,
      system.manager.step .getTimer = some middle ∧
        middle.step (.startForever system.manager.issued.length interval
          (.getConnInfo system.discoveries.length)) = some after ∧
        next =
          { system with
            manager := after
            discoveries :=
              system.discoveries ++ [system.manager.issued.length] } := by
  obtain ⟨after, ran, result⟩ := Option.map_eq_some_iff.mp stepped
  obtain ⟨middle, got, rest⟩ := run_cons_eq_some_iff.mp ran
  obtain ⟨last, started, rest⟩ := run_cons_eq_some_iff.mp rest
  cases rest
  exact ⟨middle, after, got, started, result.symm⟩

theorem of_destroy
    {discovery : Nat} (stepped : step system (.destroy discovery) = some next) :
    ∃ ref after, system.discoveries[discovery]? = some ref ∧
      system.manager.step (.release ref) = some after ∧
        next =
          { system with
            manager := after
            destroyed := Function.update system.destroyed discovery true } := by
  simp only [step] at stepped
  split at stepped
  · cases stepped
  · rename_i ref own
    split at stepped
    · cases stepped
    · obtain ⟨after, released, result⟩ := Option.map_eq_some_iff.mp stepped
      exact ⟨ref, after, own, released, result.symm⟩

theorem of_timer
    {action : TimerAction Handler}
    (stepped : step system (.timer action) = some next) :
    system.allows action = true ∧
      ∃ after, system.manager.step (mapHandler .other action) = some after ∧
        next =
          { system with
            manager := after
            polls := system.polls ++ system.pollOf action } := by
  simp only [step] at stepped
  split at stepped
  · rename_i allowed
    obtain ⟨after, called, result⟩ := Option.map_eq_some_iff.mp stepped
    exact ⟨allowed, after, called, result.symm⟩
  · cases stepped

/-- The timer of a new object, and the timers of the others. -/
theorem timers_construct
    {manager middle after : TimerManager (PollHandler Handler)}
    {callback : PollHandler Handler}
    (got : manager.step .getTimer = some middle)
    (started : middle.step
      (.startForever manager.issued.length interval callback) = some after) :
    manager.issued.length < after.issued.length ∧
      after.held manager.issued.length = true ∧
      (after.timers manager.issued.length).handler = some (.call callback) ∧
      ∀ ref, ref < manager.issued.length →
        TimerManager.Undisturbed ref manager after := by
  have old : ∀ ref, ref < manager.issued.length →
      TimerManager.Undisturbed ref manager after := by
    intro ref issued
    have first := TimerManager.undisturbed_step issued id (by simp) got
    apply first.trans
    apply TimerManager.undisturbed_step first.issued _ (by simp) started
    exact fun same => Nat.ne_of_gt issued same
  cases got
  simp only [TimerManager.step] at started
  obtain ⟨_, rfl⟩ := TimerManager.of_onTimer started
  refine ⟨?_, ?_, ?_, old⟩
  · simp [TimerManager.setTimer, TimerManager.getTimer]
  · exact Function.update_self _ _ _
  · simp only [TimerManager.setTimer, TimerManager.getTimer,
      Function.update_self]
    rfl

theorem Sound.construct
    (sound : system.Sound) (stepped : step system .construct = some next) :
    next.Sound := by
  obtain ⟨middle, after, got, started, same⟩ := of_construct stepped
  obtain ⟨issued, held, polls, old⟩ := timers_construct got started
  subst same
  have cases_of_own : ∀ discovery ref : Nat,
      (system.discoveries ++ [system.manager.issued.length])[discovery]? =
        some ref →
      system.discoveries[discovery]? = some ref ∨
        discovery = system.discoveries.length ∧
          ref = system.manager.issued.length := by
    intro discovery ref own
    rw [List.getElem?_append] at own
    split at own
    · exact .inl own
    · rw [List.getElem?_singleton] at own
      split at own
      · right
        cases own
        omega
      · cases own
  constructor
  · exact reached_step (reached_step sound.reached got) started
  · intro discovery ref own
    rcases cases_of_own discovery ref own with before | ⟨_, new⟩
    · exact (old ref (sound.issued discovery ref before)).issued
    · rw [new]
      exact issued
  · intro discovery ref own
    rcases cases_of_own discovery ref own with before | ⟨number, new⟩
    · exact (old ref (sound.issued discovery ref before)).handler _
        (sound.polls discovery ref before)
    · rw [number, new]
      exact polls
  · have before : ∀ ref, (system.manager.timers ref).CallsOnly
        (Owns (system.discoveries ++ [system.manager.issued.length]) ref) := by
      intro ref handler found discovery polls
      have own := sound.owners ref handler found discovery polls
      rw [List.getElem?_append_left (List.getElem?_eq_some_iff.mp own).1]
      exact own
    have passes : ∀ (ref : Nat) (callback : PollHandler Handler),
        TimerAction.Passes ref callback
        (.startForever system.manager.issued.length interval
          (.getConnInfo system.discoveries.length)) →
        Owns (system.discoveries ++ [system.manager.issued.length]) ref
          callback := by
      intro ref callback passes discovery polls
      obtain ⟨same, passed⟩ := passes
      rw [← passed] at polls
      cases polls
      rw [← same]
      exact List.getElem?_concat_length
    have nothing : ∀ (ref : Nat) (callback : PollHandler Handler),
        TimerAction.Passes ref callback .getTimer →
          Owns (system.discoveries ++ [system.manager.issued.length]) ref
            callback :=
      fun _ _ passes => passes.elim
    exact TimerManager.callsOnly_step
      (TimerManager.callsOnly_step before nothing got) passes started
  · intro discovery ref own
    rcases cases_of_own discovery ref own with before | ⟨number, new⟩
    · rw [(old ref (sound.issued discovery ref before)).held]
      exact sound.held discovery ref before
    · have present : system.destroyed discovery = false := by
        apply Bool.eq_false_iff.mpr
        intro gone
        have inside := sound.constructed discovery gone
        omega
      rw [new, held, present]
      rfl
  · intro discovery gone
    have inside := sound.constructed discovery gone
    simp only [List.length_append, List.length_singleton]
    omega

theorem Sound.destroy
    {discovery : Nat} (sound : system.Sound)
    (stepped : step system (.destroy discovery) = some next) : next.Sound := by
  obtain ⟨timer, after, destroyed, released, same⟩ := of_destroy stepped
  subst same
  have others : ∀ other ref : Nat, system.discoveries[other]? = some ref →
      other ≠ discovery →
        TimerManager.Undisturbed ref system.manager after := by
    intro other ref own different
    apply TimerManager.undisturbed_step (sound.issued other ref own) id _
      released
    intro means
    have equal := TimerAction.release.inj means
    subst equal
    exact different (sound.injective own destroyed)
  constructor
  · exact reached_step sound.reached released
  · intro other ref own
    exact Nat.lt_of_lt_of_le (sound.issued other ref own)
      (TimerManager.length_issued_step released)
  · intro other ref own
    exact TimerManager.handler_step (sound.issued other ref own) id
      (sound.polls other ref own) released
  · apply TimerManager.callsOnly_step sound.owners _ released
    intro ref callback passes
    exact passes.elim
  · intro other ref own
    by_cases same : other = discovery
    · subst same
      rw [destroyed] at own
      cases own
      simp only [Function.update_self]
      exact TimerManager.held_release released
    · simp only [Function.update_of_ne same]
      rw [(others other ref own same).held]
      exact sound.held other ref own
  · intro other gone
    by_cases same : other = discovery
    · subst same
      exact (List.getElem?_eq_some_iff.mp destroyed).1
    · simp only [Function.update_of_ne same] at gone
      exact sound.constructed other gone

theorem Sound.timer
    {action : TimerAction Handler} (sound : system.Sound)
    (stepped : step system (.timer action) = some next) : next.Sound := by
  obtain ⟨allowed, after, called, same⟩ := of_timer stepped
  subst same
  have undisturbed : ∀ discovery ref : Nat,
      system.discoveries[discovery]? = some ref →
        TimerManager.Undisturbed ref system.manager after := by
    intro discovery ref own
    obtain ⟨notStarted, notReleased⟩ := allows_spares allowed own
    exact TimerManager.undisturbed_step (sound.issued discovery ref own)
      notStarted notReleased called
  constructor
  · exact reached_step sound.reached called
  · intro discovery ref own
    exact (undisturbed discovery ref own).issued
  · intro discovery ref own
    exact (undisturbed discovery ref own).handler _
      (sound.polls discovery ref own)
  · apply TimerManager.callsOnly_step sound.owners _ called
    intro ref callback passes discovery polls
    subst polls
    exact (not_passes_mapHandler passes).elim
  · intro discovery ref own
    rw [(undisturbed discovery ref own).held]
    exact sound.held discovery ref own
  · exact sound.constructed

theorem Sound.step
    {action : DiscoveryAction Handler} (sound : system.Sound)
    (stepped : DiscoverySystem.step system action = some next) :
    next.Sound := by
  cases action with
  | construct => exact sound.construct stepped
  | destroy discovery => exact sound.destroy stepped
  | timer action => exact sound.timer stepped

theorem sound_create : (create : DiscoverySystem Handler).Sound := by
  constructor
  · exact ⟨[], rfl⟩
  · intro discovery ref own
    cases own
  · intro discovery ref own
    cases own
  · intro ref handler found
    cases found
  · intro discovery ref own
    cases own
  · intro discovery gone
    cases gone

/-! ### Polls for destroyed objects -/

/-- A poll comes from the timer of its object. -/
theorem Sound.own_of_expire
    (sound : system.Sound) {ref discovery : Nat}
    {timer : Timer (PollHandler Handler)}
    (expired : (system.manager.timers ref).expire true true =
      some (timer, some (.getConnInfo discovery))) :
    system.discoveries[discovery]? = some ref := by
  obtain ⟨handler, current, handles, _, result⟩ :=
    Timer.exists_handle_of_expire expired
  cases handler with
  | call callback =>
      cases result
      exact sound.owners ref _ handles discovery rfl
  | startRounds interval round callback => cases result

theorem Sound.alive_of_mem_pollOf
    (sound : system.Sound) (quiet : system.Quiet)
    {action : TimerAction Handler} {poll : Poll}
    (polled : poll ∈ system.pollOf action) : poll.alive = true := by
  cases action with
  | expire ref =>
      simp only [pollOf] at polled
      split at polled
      · rename_i timer discovery expired
        have own := sound.own_of_expire expired
        rw [List.mem_singleton.mp polled]
        cases gone : system.destroyed discovery with
        | false => rfl
        | true =>
            have free := quiet discovery ref own gone
            simp [Timer.expire, free] at expired
      · cases polled
  | _ => cases polled

theorem Sound.noStalePoll
    (sound : system.Sound) (quiet : system.Quiet)
    (alive : system.PollsAlive) : system.NoStalePoll := by
  refine ⟨alive, ?_⟩
  intro action next stepped
  cases action with
  | construct =>
      obtain ⟨_, after, _, _, same⟩ := of_construct stepped
      subst same
      exact alive
  | destroy discovery =>
      obtain ⟨_, after, _, _, same⟩ := of_destroy stepped
      subst same
      exact alive
  | timer action =>
      obtain ⟨_, after, _, same⟩ := of_timer stepped
      subst same
      intro poll listed
      rcases List.mem_append.mp listed with old | new
      · exact alive poll old
      · exact sound.alive_of_mem_pollOf quiet new

theorem Sound.quiet_step
    {action : DiscoveryAction Handler} (sound : system.Sound)
    (quiet : system.Quiet) (silent : system.DestroysSilent action)
    (stepped : DiscoverySystem.step system action = some next) :
    next.Quiet := by
  cases action with
  | construct =>
      obtain ⟨middle, after, got, started, same⟩ := of_construct stepped
      obtain ⟨_, _, _, old⟩ := timers_construct got started
      subst same
      intro discovery ref own gone
      have inside := sound.constructed discovery gone
      rw [List.getElem?_append_left inside] at own
      exact (old ref (sound.issued discovery ref own)).event
        (quiet discovery ref own gone)
  | destroy discovery =>
      obtain ⟨timer, after, destroyed, released, same⟩ := of_destroy stepped
      subst same
      intro other ref own gone
      by_cases same : other = discovery
      · subst same
        rw [destroyed] at own
        cases own
        have timers := TimerManager.timers_release released
        cases busy : (system.manager.timers timer).event with
        | none =>
            exact TimerManager.event_eq_none_step busy id released
        | some event =>
            have armed := (sound.ready timer).steady.armed busy
            have unlisted := silent timer destroyed armed
            rw [if_neg] at timers
            · rw [timers]
              exact Timer.event_reset _
            · intro listed
              obtain ⟨entry, inMap, points⟩ := List.any_eq_true.mp listed
              exact unlisted entry inMap (eq_of_beq points)
      · simp only [Function.update_of_ne same] at gone
        exact TimerManager.event_eq_none_step (quiet other ref own gone) id
          released
  | timer action =>
      obtain ⟨allowed, after, called, same⟩ := of_timer stepped
      subst same
      intro discovery ref own gone
      exact TimerManager.event_eq_none_step (quiet discovery ref own gone)
        (allows_spares allowed own).1 called

/-- An armed timer polls, also for an object that is gone. -/
theorem Sound.not_noStalePoll
    (sound : system.Sound) {discovery ref : Nat}
    (own : system.discoveries[discovery]? = some ref)
    (gone : system.destroyed discovery = true) {event : Event}
    (busy : (system.manager.timers ref).event = some event) :
    ¬ system.NoStalePoll := by
  intro noStalePoll
  obtain ⟨handler, fired, handles, _, expired⟩ :=
    (sound.ready ref).exists_expire busy
  rw [sound.polls discovery ref own] at handles
  cases handles
  have polled : system.pollOf (.expire ref) =
      [{ discovery, alive := false }] := by
    simp only [pollOf, expired, Timer.handle, gone]
    rfl
  obtain ⟨next, stepped, polls⟩ :
      ∃ next : DiscoverySystem Handler,
        DiscoverySystem.step system (.timer (.expire ref)) = some next ∧
          next.polls = system.polls ++ system.pollOf (.expire ref) := by
    simp only [DiscoverySystem.step, allows, mapHandler, TimerManager.step,
      expired]
    exact ⟨_, rfl, rfl⟩
  have alive := noStalePoll.2 _ next stepped { discovery, alive := false } (by
    rw [polls, polled]
    exact List.mem_append_right _ (List.mem_singleton_self _))
  cases alive

theorem sound_run
    {actions : List (DiscoveryAction Handler)}
    (ran : run step create actions = some system) : system.Sound :=
  run_invariant (fun _ _ _ sound stepped => sound.step stepped) sound_create
    ran

/-- A destructor that leaves an armed timer in the map is followed by a
poll. -/
theorem Sound.destroysSilent
    {action : DiscoveryAction Handler} (sound : system.Sound)
    (stepped : DiscoverySystem.step system action = some next)
    (noStalePoll : next.NoStalePoll) : system.DestroysSilent action := by
  have later := sound.step stepped
  cases action with
  | construct => trivial
  | timer action => trivial
  | destroy discovery =>
      intro timer own armed entry listed points
      obtain ⟨other, after, destroyed, released, same⟩ := of_destroy stepped
      rw [own] at destroyed
      cases destroyed
      obtain ⟨event, busy, _⟩ := armed
      have timers := TimerManager.timers_release released
      have inMap : system.manager.tMap.any
          (fun entry => entry.2 == timer) = true :=
        List.any_eq_true.mpr ⟨entry, listed, beq_iff_eq.mpr points⟩
      rw [if_pos inMap] at timers
      subst same
      rw [← timers] at busy
      exact later.not_noStalePoll own (Function.update_self _ _ _) busy
        noStalePoll

/-- A run makes no poll for a destroyed object, and comes to no point where one
could be next, exactly if every object is destroyed with a timer that is
disarmed or not listed any more. -/
theorem noStalePoll_iff
    {actions : List (DiscoveryAction Handler)}
    {final : DiscoverySystem Handler}
    (ran : run step create actions = some final) :
    (∀ state, Visits step create actions state → state.NoStalePoll) ↔
      AllSteps step DestroysSilent create actions := by
  constructor
  · intro noStalePoll
    apply allSteps_of_visits _ ran
    intro state action next _ visits visitsNext stepped
    obtain ⟨before, after, _, reached⟩ := visits
    exact (sound_run reached).destroysSilent stepped
      (noStalePoll next visitsNext)
  · intro silent state visits
    have kept : ∀ (current : DiscoverySystem Handler) action next,
        Visits step create actions next →
          current.Sound ∧ current.Quiet ∧ current.PollsAlive →
            current.DestroysSilent action →
              step current action = some next →
                next.Sound ∧ next.Quiet ∧ next.PollsAlive := by
      intro current action next _ holds guarded stepped
      obtain ⟨sound, quiet, alive⟩ := holds
      exact ⟨sound.step stepped, sound.quiet_step quiet guarded stepped,
        (sound.noStalePoll quiet alive).2 action next stepped⟩
    have initial : (create : DiscoverySystem Handler).Sound ∧
        (create : DiscoverySystem Handler).Quiet ∧
          (create : DiscoverySystem Handler).PollsAlive := by
      refine ⟨sound_create, ?_, ?_⟩
      · intro discovery ref own
        cases own
      · intro poll listed
        cases listed
    obtain ⟨sound, quiet, alive⟩ :=
      visits_invariant_of_allSteps kept initial silent ran visits
    exact sound.noStalePoll quiet alive

theorem noStalePoll_iff_stopped :
    ∃ final : DiscoverySystem Unit,
      run step create
        [.construct, .timer (.expire 0), .timer (.stop 0), .destroy 0,
          .timer .auditTimer] = some final ∧
      ((∀ state : DiscoverySystem Unit, Visits step create
          [.construct, .timer (.expire 0), .timer (.stop 0), .destroy 0,
            .timer .auditTimer] state → state.NoStalePoll) ↔
        AllSteps step DestroysSilent (create : DiscoverySystem Unit)
          [.construct, .timer (.expire 0), .timer (.stop 0), .destroy 0,
            .timer .auditTimer]) := by
  have ran : run step (create : DiscoverySystem Unit)
      [.construct, .timer (.expire 0), .timer (.stop 0), .destroy 0,
        .timer .auditTimer] = some _ := rfl
  exact ⟨_, ran, noStalePoll_iff ran⟩

/-- The object is gone, an audit leaves its timer in the map, and the timer
polls. -/
theorem noStalePoll_fails :
    ∃ final : DiscoverySystem Unit,
      run step create
        [.construct, .destroy 0, .timer .auditTimer, .timer (.expire 0)] =
          some final ∧
      final.polls = [{ discovery := 0, alive := false }] ∧
      ¬ final.PollsAlive := by
  refine ⟨_, rfl, rfl, ?_⟩
  intro alive
  cases alive { discovery := 0, alive := false } (List.mem_singleton_self _)

end DiscoverySystem

end DBWrapper
