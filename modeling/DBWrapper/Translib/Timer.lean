import Mathlib.Algebra.Group.Nat.Defs

/-!
# The timer on top of a libevent event

A `Timer` counts the expirations of its event and frees the event when it has
had as many as it was started for.  Whether `event_new` and `event_add`
succeed is libevent's to decide and is therefore an argument.  What a user's
handler does is not part of the timer: an expiration ends with the name of the
callback that is invoked.
-/

namespace DBWrapper

namespace Translib

/-- `struct timeval`. -/
structure Timeval where
  sec : UInt32
  usec : UInt32
  deriving DecidableEq, Repr

/-- The part of a libevent `event` that `Timer` sets: `EV_PERSIST`, and the
timeout with which the event is pending. -/
structure Event where
  persist : Bool
  pending : Option Timeval
  deriving DecidableEq, Repr

namespace Event

/-- `event_new`: the event is not pending yet. -/
def new (persist : Bool) : Event :=
  { persist, pending := none }

/-- `event_add`. -/
def add (event : Event) (tv : Timeval) : Event :=
  { event with pending := some tv }

/-- `event_del`. -/
def del (event : Event) : Event :=
  { event with pending := none }

/-- The timeout of a pending event is over, just before libevent runs its
callback: only a persistent event stays pending. -/
def fire (event : Event) : Option Event :=
  match event.pending with
  | none => none
  | some _ => some (if event.persist then event else event.del)

/-- A persistent event stays as it is when it fires. -/
theorem fire_of_persist
    {event fired : Event} (persists : event.persist = true)
    (fires : event.fire = some fired) : fired = event := by
  simp only [fire] at fires
  split at fires
  · cases fires
  · rw [if_pos persists] at fires
    exact (Option.some.inj fires).symm

end Event

/-- `Timer::Handler`: the user's own function, or the closure that
`startAfter` makes. -/
inductive TimerHandler (Callback : Type) where
  | call (callback : Callback)
  | startRounds (interval : UInt32) (round : UInt64) (callback : Callback)
  deriving DecidableEq, Repr

/-- Every start that the handler makes by itself asks for at least one
round. -/
def TimerHandler.Positive {Callback : Type} : TimerHandler Callback → Prop
  | .call _ => True
  | .startRounds _ round _ => 0 < round

/-- `handler` is `none` while the `std::function` is empty. -/
structure Timer (Callback : Type) where
  event : Option Event
  interval : UInt32
  round : UInt64
  curRound : UInt64
  handler : Option (TimerHandler Callback)
  deriving DecidableEq, Repr

namespace Timer

variable {Callback : Type}

/-- The constructor. -/
def create : Timer Callback :=
  { event := none, interval := 0, round := 1, curRound := 0, handler := none }

/-- `curRound` wraps to zero when `round` is the largest count. -/
def reset (timer : Timer Callback) : Timer Callback :=
  match timer.event with
  | none => timer
  | some _ => { timer with event := none, curRound := timer.round + 1 }

def stop (timer : Timer Callback) : Timer Callback :=
  timer.reset

def isFinished (timer : Timer Callback) : Bool :=
  timer.round ≤ timer.curRound

/-- The `timeval` of an interval in milliseconds. -/
def timevalOf (interval : UInt32) : Timeval :=
  { sec := interval / 1000, usec := interval % 1000 * 1000 }

/-- `created` and `added` are whether `event_new` and `event_add` succeed. -/
def startRounds (timer : Timer Callback) (created added : Bool)
    (interval : UInt32) (round : UInt64) (handler : TimerHandler Callback) :
    Bool × Timer Callback :=
  match timer.event with
  | some _ => (false, timer)
  | none =>
      if created then
        let event := Event.new (1 < round)
        if added then
          (true,
            { event := some (event.add (timevalOf interval)), interval, round,
              curRound := 0, handler := some handler })
        else
          (false, { timer with event := some event }.reset)
      else
        (false, timer)

def startOnce (timer : Timer Callback) (created added : Bool)
    (interval : UInt32) (handler : TimerHandler Callback) :
    Bool × Timer Callback :=
  timer.startRounds created added interval 1 handler

/-- The round count is `uint32_t(-1)`. -/
def startForever (timer : Timer Callback) (created added : Bool)
    (interval : UInt32) (handler : TimerHandler Callback) :
    Bool × Timer Callback :=
  timer.startRounds created added interval 0xffffffff handler

def startAfter (timer : Timer Callback) (created added : Bool)
    (after interval : UInt32) (round : UInt64) (callback : Callback) :
    Bool × Timer Callback :=
  timer.startOnce created added after (.startRounds interval round callback)

/-- `event_del` and `reset`, as `eventHandler` does them in the last round. -/
def release (timer : Timer Callback) : Timer Callback :=
  { timer with event := timer.event.map Event.del }.reset

/-- The callback of the event, up to the call of the handler, and the handler
that it has copied before. -/
def eventHandler (timer : Timer Callback) :
    Timer Callback × Option (TimerHandler Callback) :=
  let handler := timer.handler
  let timer := { timer with curRound := timer.curRound + 1 }
  if timer.round ≤ timer.curRound then
    (timer.release, handler)
  else
    (timer, handler)

/-- The call of the handler: what is left of it for the user to do is the
callback that is returned. -/
def handle (timer : Timer Callback) (created added : Bool) :
    TimerHandler Callback → Timer Callback × Option Callback
  | .call callback => (timer, some callback)
  | .startRounds interval round callback =>
      ((timer.startRounds created added interval round (.call callback)).2,
        none)

/-- One expiration.  It needs a pending event, and calling an empty handler
throws. -/
def expire (timer : Timer Callback) (created added : Bool) :
    Option (Timer Callback × Option Callback) :=
  match timer.event.bind Event.fire with
  | none => none
  | some event =>
      let handled := { timer with event := some event }.eventHandler
      handled.2.map (handled.1.handle created added)

/-- The event of the timer is pending. -/
def Armed (timer : Timer Callback) : Prop :=
  ∃ event, timer.event = some event ∧ event.pending.isSome

/-- What holds of a timer whose starts ask for at least one round each: it has
an event only while the event is pending and rounds are left, and only an event
with more than one round persists. -/
structure Sound (timer : Timer Callback) : Prop where
  pending : ∀ event, timer.event = some event → event.pending.isSome
  persists : ∀ event, timer.event = some event →
    (event.persist = true ↔ 1 < timer.round)
  roundsLeft : ∀ event, timer.event = some event →
    timer.curRound < timer.round
  positive : ∀ handler, timer.handler = some handler →
    TimerHandler.Positive handler

/-- What holds of a timer whatever it was started for, no round at all
included. -/
structure Steady (timer : Timer Callback) : Prop where
  pending : ∀ event, timer.event = some event → event.pending.isSome
  persists : ∀ event, timer.event = some event →
    (event.persist = true ↔ 1 < timer.round)
  counts : ∀ event, timer.event = some event →
    timer.curRound < timer.round ∨ timer.curRound = 0

/-! ### Starting and resetting -/

@[simp] theorem event_reset (timer : Timer Callback) :
    timer.reset.event = none := by
  cases found : timer.event <;> simp [reset, found]

@[simp] theorem handler_reset (timer : Timer Callback) :
    timer.reset.handler = timer.handler := by
  cases found : timer.event <;> simp [reset, found]

theorem reset_of_event_eq_none
    {timer : Timer Callback} (free : timer.event = none) :
    timer.reset = timer := by
  simp [reset, free]

/-- A start changes nothing while the timer has an event. -/
theorem startRounds_of_event_eq_some
    {timer : Timer Callback} {event : Event}
    (busy : timer.event = some event) (created added : Bool)
    (interval : UInt32) (round : UInt64) (handler : TimerHandler Callback) :
    timer.startRounds created added interval round handler =
      (false, timer) := by
  simp [startRounds, busy]

/-- A start of a timer without event, when libevent plays along. -/
theorem startRounds_of_event_eq_none
    {timer : Timer Callback} (free : timer.event = none)
    (interval : UInt32) (round : UInt64) (handler : TimerHandler Callback) :
    timer.startRounds true true interval round handler =
      (true,
        { event := some ((Event.new (1 < round)).add (timevalOf interval))
          interval, round, curRound := 0, handler := some handler }) := by
  simp [startRounds, free]

theorem not_armed_of_event_eq_none
    {timer : Timer Callback} (free : timer.event = none) : ¬ timer.Armed := by
  intro armed
  obtain ⟨event, found, _⟩ := armed
  rw [free] at found
  cases found

/-! ### Steadiness -/

theorem Steady.of_event_eq_none
    {timer : Timer Callback} (free : timer.event = none) : timer.Steady := by
  constructor <;> simp [free]

theorem steady_create : (create : Timer Callback).Steady :=
  Steady.of_event_eq_none rfl

theorem steady_reset (timer : Timer Callback) : timer.reset.Steady :=
  Steady.of_event_eq_none (event_reset timer)

theorem Steady.startRounds
    {timer : Timer Callback} (steady : timer.Steady) (interval : UInt32)
    (round : UInt64) (handler : TimerHandler Callback) :
    (timer.startRounds true true interval round handler).2.Steady := by
  cases found : timer.event with
  | some event =>
      rw [startRounds_of_event_eq_some found]
      exact steady
  | none =>
      rw [startRounds_of_event_eq_none found]
      constructor
      · intro event started
        cases started
        rfl
      · intro event started
        cases started
        simp [Event.new, Event.add]
      · intro event _
        exact .inr rfl

theorem Steady.handle
    {timer : Timer Callback} (steady : timer.Steady)
    (handler : TimerHandler Callback) :
    (timer.handle true true handler).1.Steady := by
  cases handler with
  | call callback => exact steady
  | startRounds interval round callback =>
      exact steady.startRounds interval round (.call callback)

theorem Steady.armed
    {timer : Timer Callback} (steady : timer.Steady) {event : Event}
    (found : timer.event = some event) : timer.Armed :=
  ⟨event, found, steady.pending event found⟩

theorem Steady.event_eq_none_of_not_armed
    {timer : Timer Callback} (steady : timer.Steady)
    (notArmed : ¬ timer.Armed) : timer.event = none := by
  cases found : timer.event with
  | none => rfl
  | some event => exact (notArmed (steady.armed found)).elim

/-! ### Soundness -/

theorem Sound.steady {timer : Timer Callback} (sound : timer.Sound) :
    timer.Steady :=
  ⟨sound.pending, sound.persists,
    fun event found => .inl (sound.roundsLeft event found)⟩

/-- A timer without event is sound if its handler is. -/
theorem Sound.of_event_eq_none
    {timer : Timer Callback} (free : timer.event = none)
    (positive : ∀ handler, timer.handler = some handler →
      TimerHandler.Positive handler) : timer.Sound := by
  have steady := Steady.of_event_eq_none free
  refine ⟨steady.pending, steady.persists, ?_, positive⟩
  intro event found
  rw [free] at found
  cases found

theorem sound_create : (create : Timer Callback).Sound := by
  apply Sound.of_event_eq_none rfl
  intro handler found
  cases found

theorem Sound.reset {timer : Timer Callback} (sound : timer.Sound) :
    timer.reset.Sound := by
  apply Sound.of_event_eq_none (event_reset timer)
  intro handler found
  rw [handler_reset] at found
  exact sound.positive handler found

theorem Sound.startRounds
    {timer : Timer Callback} (sound : timer.Sound) (interval : UInt32)
    {round : UInt64} (some_round : 0 < round)
    {handler : TimerHandler Callback}
    (positive : TimerHandler.Positive handler) :
    (timer.startRounds true true interval round handler).2.Sound := by
  have steady := sound.steady.startRounds interval round handler
  cases found : timer.event with
  | some event =>
      rw [startRounds_of_event_eq_some found]
      exact sound
  | none =>
      rw [startRounds_of_event_eq_none found] at steady ⊢
      refine ⟨steady.pending, steady.persists, ?_, ?_⟩
      · intro event _
        exact some_round
      · intro other started
        cases started
        exact positive

theorem Sound.handle
    {timer : Timer Callback} (sound : timer.Sound)
    {handler : TimerHandler Callback}
    (positive : TimerHandler.Positive handler) :
    (timer.handle true true handler).1.Sound := by
  cases handler with
  | call callback => exact sound
  | startRounds interval round callback =>
      exact sound.startRounds interval positive trivial

/-! ### Expirations -/

@[simp] theorem snd_eventHandler (timer : Timer Callback) :
    timer.eventHandler.2 = timer.handler := by
  simp only [eventHandler]
  split <;> rfl

/-- In its last round the timer frees its event. -/
theorem fst_eventHandler_of_last
    (timer : Timer Callback) {event : Event} (busy : timer.event = some event)
    (last : timer.round ≤ timer.curRound + 1) :
    timer.eventHandler.1 =
      { timer with event := none, curRound := timer.round + 1 } := by
  simp [eventHandler, release, Timer.reset, busy, last]

theorem fst_eventHandler_of_left
    (timer : Timer Callback) (left : ¬ timer.round ≤ timer.curRound + 1) :
    timer.eventHandler.1 = { timer with curRound := timer.curRound + 1 } := by
  simp [eventHandler, left]

theorem expire_eq (timer : Timer Callback) (created added : Bool) :
    timer.expire created added =
      (timer.event.bind Event.fire).bind fun event =>
        timer.handler.map fun handler =>
          { timer with event := some event }.eventHandler.1.handle
            created added handler := by
  simp only [expire]
  cases timer.event.bind Event.fire with
  | none => rfl
  | some event => simp

/-- The two ways an expiration can go: in the last round the event is freed,
before it the event stays pending and one round is counted. -/
theorem Steady.expire_eq_some
    {timer next : Timer Callback} {called : Option Callback}
    (steady : timer.Steady)
    (expired : timer.expire true true = some (next, called)) :
    timer.Armed ∧ ∃ handler, timer.handler = some handler ∧
      (timer.round ≤ timer.curRound + 1 ∧
          (next, called) =
            { timer with event := none, curRound := timer.round + 1 }.handle
              true true handler ∨
        timer.curRound + 1 < timer.round ∧
          (next, called) =
            { timer with curRound := timer.curRound + 1 }.handle
              true true handler) := by
  rw [expire_eq] at expired
  obtain ⟨fired, fires, rest⟩ := Option.bind_eq_some_iff.mp expired
  obtain ⟨event, found, firing⟩ := Option.bind_eq_some_iff.mp fires
  obtain ⟨handler, handles, result⟩ := Option.map_eq_some_iff.mp rest
  refine ⟨steady.armed found, handler, handles, ?_⟩
  by_cases last : timer.round ≤ timer.curRound + 1
  · left
    have freed := fst_eventHandler_of_last
      { timer with event := some fired } rfl last
    rw [freed] at result
    exact ⟨last, result.symm⟩
  · right
    have counted := fst_eventHandler_of_left
      { timer with event := some fired } last
    rw [counted] at result
    have remaining : timer.curRound + 1 < timer.round :=
      UInt64.not_le.mp last
    have several : 1 < timer.round := by
      rw [UInt64.lt_iff_toNat_lt, UInt64.toNat_add] at remaining
      have bounded := timer.round.toNat_lt
      rcases steady.counts event found with left | zero
      · rw [UInt64.lt_iff_toNat_lt] at left ⊢
        simp only [UInt64.toNat_one] at remaining ⊢
        omega
      · rw [UInt64.lt_iff_toNat_lt]
        rw [zero] at remaining
        simp only [UInt64.toNat_one, UInt64.toNat_zero] at remaining ⊢
        omega
    have persists := (steady.persists event found).mpr several
    have same := Event.fire_of_persist persists firing
    refine ⟨remaining, ?_⟩
    rw [← result, same, ← found]

/-- What holds of the timer when its event is freed, and when a round is
counted, holds after the expiration if the handler keeps it. -/
theorem Steady.of_expire
    {Invariant : Timer Callback → Prop} {timer next : Timer Callback}
    {called : Option Callback} (steady : timer.Steady)
    (expired : timer.expire true true = some (next, called))
    (freed : Invariant
      { timer with event := none, curRound := timer.round + 1 })
    (counted : timer.curRound + 1 < timer.round →
      Invariant { timer with curRound := timer.curRound + 1 })
    (handled : ∀ handler current, timer.handler = some handler →
      Invariant current → Invariant (current.handle true true handler).1) :
    Invariant next := by
  obtain ⟨_, handler, handles, outcome⟩ := steady.expire_eq_some expired
  rcases outcome with ⟨_, result⟩ | ⟨remaining, result⟩
  · have after := handled handler _ handles freed
    rw [← result] at after
    exact after
  · have after := handled handler _ handles (counted remaining)
    rw [← result] at after
    exact after

theorem Steady.expire
    {timer next : Timer Callback} {called : Option Callback}
    (steady : timer.Steady)
    (expired : timer.expire true true = some (next, called)) :
    next.Steady := by
  apply steady.of_expire expired
  · exact .of_event_eq_none rfl
  · intro remaining
    exact { steady with counts := fun _ _ => .inl remaining }
  · intro handler current _ holds
    exact holds.handle handler

theorem Sound.expire
    {timer next : Timer Callback} {called : Option Callback}
    (sound : timer.Sound)
    (expired : timer.expire true true = some (next, called)) :
    next.Sound := by
  apply sound.steady.of_expire expired
  · exact .of_event_eq_none rfl sound.positive
  · intro remaining
    exact { sound with roundsLeft := fun _ _ => remaining }
  · intro handler current handles holds
    exact holds.handle (sound.positive handler handles)

/-- A sound timer with a pending event is not finished. -/
theorem Sound.not_isFinished_of_armed
    {timer : Timer Callback} (sound : timer.Sound) (armed : timer.Armed) :
    timer.isFinished = false := by
  obtain ⟨event, found, _⟩ := armed
  have left := sound.roundsLeft event found
  simp only [isFinished, decide_eq_false_iff_not]
  exact UInt64.not_le.mpr left

/-! ### Timers that are started for a number of rounds -/

/-- A timer that a start has armed and that has expired `count` times since
then. -/
structure RunsRounds (timer : Timer Callback) (interval : UInt32)
    (round : UInt64) (handler : TimerHandler Callback) (count : Nat) :
    Prop where
  event : timer.event =
    some ((Event.new (1 < round)).add (timevalOf interval))
  asked : timer.round = round
  curRound : timer.curRound = UInt64.ofNat count
  bound : count < round.toNat
  handler : timer.handler = some handler

theorem runsRounds_startRounds
    {timer : Timer Callback} (free : timer.event = none) (interval : UInt32)
    {round : UInt64} (some_round : 0 < round)
    (handler : TimerHandler Callback) :
    (timer.startRounds true true interval round handler).2.RunsRounds
      interval round handler 0 := by
  rw [startRounds_of_event_eq_none free]
  exact ⟨rfl, rfl, rfl, UInt64.lt_iff_toNat_lt.mp some_round, rfl⟩

section

variable {timer : Timer Callback} {interval : UInt32} {round : UInt64}
  {handler : TimerHandler Callback} {count : Nat}

theorem RunsRounds.armed
    (runs : timer.RunsRounds interval round handler count) : timer.Armed :=
  ⟨_, runs.event, rfl⟩

theorem RunsRounds.toNat_curRound
    (runs : timer.RunsRounds interval round handler count) :
    timer.curRound.toNat = count := by
  rw [runs.curRound, UInt64.toNat_ofNat_of_lt']
  exact Nat.lt_trans runs.bound round.toNat_lt

theorem RunsRounds.toNat_curRound_add_one
    (runs : timer.RunsRounds interval round handler count) :
    (timer.curRound + 1).toNat = (count + 1) % 2 ^ 64 := by
  rw [UInt64.toNat_add, runs.toNat_curRound]
  rfl

/-- The rounds are counted one by one, and the last one frees the event before
the handler is called. -/
theorem RunsRounds.expire
    (runs : timer.RunsRounds interval round handler count) :
    ∃ after : Timer Callback,
      timer.expire true true = some (after.handle true true handler) ∧
        (count + 1 < round.toNat →
          after.RunsRounds interval round handler (count + 1)) ∧
        (count + 1 = round.toNat → after.event = none) := by
  have bounded := round.toNat_lt
  have next := runs.toNat_curRound_add_one
  have fires : timer.event.bind Event.fire =
      some (if 1 < round then
        (Event.new (1 < round)).add (timevalOf interval)
      else ((Event.new (1 < round)).add (timevalOf interval)).del) := by
    rw [runs.event]
    simp [Event.fire, Event.new, Event.add]
  let fired := { timer with event := timer.event.bind Event.fire }
  refine ⟨fired.eventHandler.1, ?_, ?_, ?_⟩
  · simp only [fired]
    rw [expire_eq, fires, runs.handler]
    rfl
  · intro more
    have several : 1 < round := by
      rw [UInt64.lt_iff_toNat_lt]
      simp only [UInt64.toNat_one]
      omega
    have left : ¬ timer.round ≤ timer.curRound + 1 := by
      rw [runs.asked, UInt64.le_iff_toNat_le, next]
      omega
    simp only [fired]
    rw [fires, if_pos several, ← runs.event, fst_eventHandler_of_left _ left]
    refine ⟨runs.event, runs.asked, ?_, more, runs.handler⟩
    apply UInt64.toNat.inj
    rw [next, UInt64.toNat_ofNat']
  · intro last
    have ends : timer.round ≤ timer.curRound + 1 := by
      rw [runs.asked, UInt64.le_iff_toNat_le, next]
      omega
    have busy : fired.event = some _ := fires
    rw [fst_eventHandler_of_last fired busy ends]

theorem RunsRounds.not_isFinished
    (runs : timer.RunsRounds interval round handler count) :
    timer.isFinished = false := by
  simp only [isFinished, decide_eq_false_iff_not]
  rw [runs.asked, UInt64.le_iff_toNat_le, runs.toNat_curRound]
  exact Nat.not_le.mpr runs.bound

end

/-! ### Timers that are started forever -/

/-- The event of a timer that `startForever` has armed. -/
def foreverEvent (interval : UInt32) : Event :=
  { persist := true, pending := some (timevalOf interval) }

/-- A timer that `startForever` has armed and that has expired `count` times
since then. -/
structure RunsForever (timer : Timer Callback) (interval : UInt32)
    (callback : Callback) (count : Nat) : Prop where
  event : timer.event = some (foreverEvent interval)
  round : timer.round = 0xffffffff
  curRound : timer.curRound = UInt64.ofNat count
  bound : count < 2 ^ 32 - 1
  handler : timer.handler = some (.call callback)

theorem RunsForever.armed
    {timer : Timer Callback} {interval : UInt32} {callback : Callback}
    {count : Nat} (runs : timer.RunsForever interval callback count) :
    timer.Armed :=
  ⟨_, runs.event, rfl⟩

/-- Forever is a number of rounds. -/
theorem runsForever_iff
    {timer : Timer Callback} {interval : UInt32} {callback : Callback}
    {count : Nat} :
    timer.RunsForever interval callback count ↔
      timer.RunsRounds interval 0xffffffff (.call callback) count := by
  constructor
  · intro runs
    exact ⟨runs.event, runs.round, runs.curRound, runs.bound, runs.handler⟩
  · intro runs
    exact ⟨runs.event, runs.asked, runs.curRound, runs.bound, runs.handler⟩

theorem runsForever_startForever
    {timer : Timer Callback} (free : timer.event = none) (interval : UInt32)
    (callback : Callback) :
    (timer.startForever true true interval (.call callback)).2.RunsForever
      interval callback 0 :=
  runsForever_iff.mpr
    (runsRounds_startRounds free interval (by decide) (.call callback))

/-- The rounds are counted one by one, and the last one that `uint32_t(-1)`
allows frees the event. -/
theorem RunsForever.expire
    {timer : Timer Callback} {interval : UInt32} {callback : Callback}
    {count : Nat} (runs : timer.RunsForever interval callback count) :
    ∃ next, timer.expire true true = some (next, some callback) ∧
      (count + 1 < 2 ^ 32 - 1 → next.RunsForever interval callback (count + 1)) ∧
      (count + 1 = 2 ^ 32 - 1 → next.event = none) := by
  obtain ⟨next, expired, goesOn, ends⟩ := (runsForever_iff.mp runs).expire
  refine ⟨next, expired, ?_, ends⟩
  intro more
  exact runsForever_iff.mpr (goesOn more)

theorem RunsForever.not_isFinished
    {timer : Timer Callback} {interval : UInt32} {callback : Callback}
    {count : Nat} (runs : timer.RunsForever interval callback count) :
    timer.isFinished = false :=
  (runsForever_iff.mp runs).not_isFinished

/-- The microseconds of an interval are far below the end of their type. -/
theorem toNat_usec_timevalOf (interval : UInt32) :
    (timevalOf interval).usec.toNat = interval.toNat % 1000 * 1000 := by
  have bound := Nat.mod_lt interval.toNat (show 1000 > 0 by decide)
  simp only [timevalOf, UInt32.toNat_mod, UInt32.toNat_mul,
    UInt32.reduceToNat]
  apply Nat.mod_eq_of_lt
  omega

/-- Different intervals are different timeouts. -/
theorem timevalOf_injective {left right : UInt32}
    (same : timevalOf left = timevalOf right) : left = right := by
  have seconds : left.toNat / 1000 = right.toNat / 1000 := by
    have secs := congrArg (fun tv => tv.sec.toNat) same
    simpa only [timevalOf, UInt32.toNat_div, UInt32.reduceToNat] using secs
  have milliseconds : left.toNat % 1000 = right.toNat % 1000 := by
    have usecs := congrArg (fun tv => tv.usec.toNat) same
    rw [toNat_usec_timevalOf, toNat_usec_timevalOf] at usecs
    exact Nat.eq_of_mul_eq_mul_right (by decide) usecs
  apply UInt32.toNat.inj
  rw [← Nat.div_add_mod left.toNat 1000, seconds, milliseconds,
    Nat.div_add_mod]

end Timer

end Translib

end DBWrapper
