import Mathlib.Data.List.Basic

/-!
# Pending requests

Requests wait in a queue for their results.  A result carries no mark of the
request that it belongs to; it goes to the one at the head of the queue.
-/

namespace Foundation

universe u v
variable {Request : Type u} {Result : Type v}

/-- The results are those of the first requests; the others are pending. -/
def Answers (requests : List Request) (results : List Result)
    (pending : List Request) : Prop :=
  ∃ front, requests = front ++ pending ∧ front.length = results.length

/-- Only the requests with a result count. -/
theorem zip_append_of_length
    {front : List Request} {results : List Result}
    (same : front.length = results.length) (back : List Request) :
    (front ++ back).zip results = front.zip results := by
  calc
    (front ++ back).zip results = (front ++ back).zip (results ++ []) := by
      rw [List.append_nil]
    _ = front.zip results ++ back.zip [] := List.zip_append same
    _ = front.zip results := by rw [List.zip_nil_right, List.append_nil]

namespace Answers

variable {requests pending : List Request} {results : List Result}

theorem start : Answers ([] : List Request) ([] : List Result) [] :=
  ⟨[], rfl, rfl⟩

theorem push (answers : Answers requests results pending) (request : Request) :
    Answers (requests ++ [request]) results (pending ++ [request]) := by
  obtain ⟨front, rfl, same⟩ := answers
  exact ⟨front, List.append_assoc front pending [request], same⟩

theorem zip_push
    (answers : Answers requests results pending) (request : Request) :
    (requests ++ [request]).zip results = requests.zip results := by
  obtain ⟨front, rfl, same⟩ := answers
  rw [List.append_assoc, zip_append_of_length same, zip_append_of_length same]

theorem pop
    {request : Request} (answers : Answers requests results (request :: pending))
    (result : Result) : Answers requests (results ++ [result]) pending := by
  obtain ⟨front, rfl, same⟩ := answers
  refine ⟨front ++ [request], ?_, ?_⟩
  · rw [List.append_assoc, List.singleton_append]
  · rw [List.length_append, List.length_append, same]
    rfl

theorem zip_pop
    {request : Request} (answers : Answers requests results (request :: pending))
    (result : Result) :
    requests.zip (results ++ [result]) =
      requests.zip results ++ [(request, result)] := by
  obtain ⟨front, rfl, same⟩ := answers
  rw [List.zip_append same, zip_append_of_length same, List.zip_cons_cons,
    List.zip_nil_right]

theorem length_le (answers : Answers requests results pending) :
    results.length ≤ requests.length := by
  obtain ⟨front, rfl, same⟩ := answers
  rw [List.length_append]
  omega

/-- With nothing pending, every request has its result. -/
theorem complete (answers : Answers requests results []) :
    results.length = requests.length := by
  obtain ⟨front, rfl, same⟩ := answers
  rw [List.append_nil, same]

end Answers

end Foundation
