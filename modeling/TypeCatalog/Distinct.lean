/-! # The first of each name

Of a list of named items the first of each name is kept, in order. -/

namespace TypeCatalog

variable {α : Type}

/-- The items whose names have not been seen, the first of each name. -/
def firstOfEachFrom (name : α → String) (seen : List String) : List α → List α
  | [] => []
  | item :: rest =>
      if seen.contains (name item) then firstOfEachFrom name seen rest
      else item :: firstOfEachFrom name (name item :: seen) rest

def firstOfEach (name : α → String) (items : List α) : List α := firstOfEachFrom name [] items

@[simp] theorem firstOfEach_nil (name : α → String) : firstOfEach name [] = [] := rfl

end TypeCatalog
