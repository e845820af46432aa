/-! Sorting that keeps items of equal rank in the order they came in. -/
namespace Retag.StableSort

/-- Puts an item in front of the first one that it may stand before. -/
def insert (le : α → α → Bool) (a : α) : List α → List α
  | [] => [a]
  | b :: bs => if le a b then a :: b :: bs else b :: insert le a bs

def sort (le : α → α → Bool) : List α → List α
  | [] => []
  | a :: as => insert le a (sort le as)

end Retag.StableSort
