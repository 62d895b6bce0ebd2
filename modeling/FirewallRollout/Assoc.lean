/-!
# Association lists

Lists of keys with values, each key at most once.
-/
namespace FirewallRollout.Assoc

variable {α : Type}

/-- The list with a value under a key; a new key goes last. -/
def put (l : List (String × α)) (key : String) (value : α) : List (String × α) :=
  if l.any (·.1 == key) then l.map fun e => if e.1 == key then (key, value) else e
  else l ++ [(key, value)]

/-- The list without a key. -/
def erase (l : List (String × α)) (key : String) : List (String × α) := l.filter (·.1 != key)

end FirewallRollout.Assoc
