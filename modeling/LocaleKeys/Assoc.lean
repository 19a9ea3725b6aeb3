/-!
Association lists in insertion order, each key at most once as long as they are built by the
operations here.
-/

namespace LocaleKeys.Assoc

variable {α β : Type} [BEq α]

def get? (key : α) : List (α × β) → Option β
  | [] => none
  | (k, v) :: rest => if k == key then some v else get? key rest

def has (key : α) (entries : List (α × β)) : Bool :=
  (get? key entries).isSome

/-- Sets the value of a key: in place when it is there, else at the end. -/
def put (key : α) (value : β) : List (α × β) → List (α × β)
  | [] => [(key, value)]
  | (k, v) :: rest => if k == key then (k, value) :: rest else (k, v) :: put key value rest

/-- Gives a key a value at the end, unless it has one. -/
def offer (key : α) (value : β) : List (α × β) → List (α × β)
  | [] => [(key, value)]
  | (k, v) :: rest => if k == key then (k, v) :: rest else (k, v) :: offer key value rest

/-- Replaces the value of a key by a function of it, or sets it at the end. -/
def update (key : α) (change : Option β → β) : List (α × β) → List (α × β)
  | [] => [(key, change none)]
  | (k, v) :: rest =>
    if k == key then (k, change (some v)) :: rest else (k, v) :: update key change rest

end LocaleKeys.Assoc
