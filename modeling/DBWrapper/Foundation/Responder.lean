import Mathlib.Logic.Relation

/-!
# A server that answers every request once

The server takes one request at a time, answers it, and is then done with it.
The steps of other parties may come between any two of these.  Whatever the
interleaving, the answers given so far are those to the requests processed so
far, in the same order.
-/

namespace Foundation

universe u v
variable {Request : Type u} {Reply : Type v}

/-- How far the server is with a request. -/
inductive Stage (Request : Type u) where
  | free
  | taken (request : Request)
  | answered (request : Request)
  deriving DecidableEq, Repr

/-- The server, with the requests it is done with and the answers it has
given. -/
structure Responder (Request : Type u) (Reply : Type v) where
  stage : Stage Request
  finished : List Request
  replies : List Reply

namespace Responder

inductive Step (answer : Request → Reply) :
    Responder Request Reply → Responder Request Reply → Prop where
  | take {responder : Responder Request Reply} (request : Request) :
      responder.stage = .free →
      Step answer responder { responder with stage := .taken request }
  | answer {responder : Responder Request Reply} {request : Request} :
      responder.stage = .taken request →
      Step answer responder
        { responder with
          stage := .answered request
          replies := responder.replies ++ [answer request] }
  | finish {responder : Responder Request Reply} {request : Request} :
      responder.stage = .answered request →
      Step answer responder
        { responder with
          stage := .free
          finished := responder.finished ++ [request] }

/-- The requests whose answer has been given. -/
def processed (responder : Responder Request Reply) : List Request :=
  match responder.stage with
  | .answered request => responder.finished ++ [request]
  | _ => responder.finished

/-- Every processed request has one answer, and there are no others. -/
def OneToOne (answer : Request → Reply)
    (responder : Responder Request Reply) : Prop :=
  responder.replies = responder.processed.map answer

theorem OneToOne.step
    {answer : Request → Reply} {responder next : Responder Request Reply}
    (oneToOne : OneToOne answer responder)
    (stepped : Step answer responder next) : OneToOne answer next := by
  simp only [OneToOne] at oneToOne
  cases stepped with
  | take request free => simpa [OneToOne, processed, free] using oneToOne
  | answer taken => simp [OneToOne, processed, taken, oneToOne]
  | finish answered =>
      simpa [OneToOne, processed, answered] using oneToOne

theorem OneToOne.steps
    {answer : Request → Reply} {responder next : Responder Request Reply}
    (oneToOne : OneToOne answer responder)
    (steps : Relation.ReflTransGen (Step answer) responder next) :
    OneToOne answer next := by
  induction steps with
  | refl => exact oneToOne
  | tail _ stepped induction => exact induction.step stepped

end Responder

end Foundation
