import Mathlib.Data.List.Rotate

/-!
# Connection targets

`ConnInfo` has two comparisons.  `std::list::remove` and the pools select by
`operator==`, while `std::set` finds an element by `operator<`, which compares
the tuples of the fields the other way round.  Both select the same target.
-/

namespace DBWrapper

/-- `type` is 0 for a local connection; all other values are remote. -/
structure ConnInfo where
  sourceIP : String
  sourcePort : String
  destIP : String
  destPort : String
  type : Int
  deriving DecidableEq, Repr

namespace ConnInfo

/-- `operator==`. -/
def beq (lhs rhs : ConnInfo) : Bool :=
  lhs.sourceIP == rhs.sourceIP && lhs.sourcePort == rhs.sourcePort &&
    lhs.destIP == rhs.destIP && lhs.destPort == rhs.destPort &&
    lhs.type == rhs.type

/-- The comparison of two `std::tie`s of the fields. -/
def compareTies : ConnInfo → ConnInfo → Ordering :=
  compareLex (compareOn sourceIP)
    (compareLex (compareOn sourcePort)
      (compareLex (compareOn destIP)
        (compareLex (compareOn destPort) (compareOn type))))

/-- `operator<`: the tuple of the argument is the left one. -/
def lt (lhs r : ConnInfo) : Bool :=
  compareTies r lhs == .lt

/-- The order of a `std::set` whose elements are compared by `operator<`. -/
def setOrder (lhs rhs : ConnInfo) : Ordering :=
  compareTies rhs lhs

theorem beq_iff {lhs rhs : ConnInfo} : lhs.beq rhs = true ↔ lhs = rhs := by
  cases lhs
  cases rhs
  simp [beq, and_assoc]

instance : Std.TransCmp compareTies :=
  inferInstanceAs (Std.TransCmp (compareLex _ _))

instance : Std.TransCmp setOrder :=
  inferInstanceAs (Std.TransCmp fun lhs rhs => compareTies rhs lhs)

theorem compareTies_eq_iff {lhs rhs : ConnInfo} :
    compareTies lhs rhs = .eq ↔ lhs = rhs := by
  cases lhs
  cases rhs
  simp [compareTies, compareLex_eq_eq, compareOn]

instance : Std.LawfulEqCmp setOrder where
  compare_self := compareTies_eq_iff.mpr rfl
  eq_of_compare equivalent := (compareTies_eq_iff.mp equivalent).symm

end ConnInfo

/-- `std::set<connInfo>`. -/
abbrev ConnList := Std.TreeSet ConnInfo ConnInfo.setOrder

end DBWrapper
