import TreeAudit.Database.Fault

/-!
Walks: what is found one after the other, up to where something is in the way. A walk that
fails has still found what came before, so that who needs only so much does not notice.
-/

set_option autoImplicit false
set_option relaxedAutoImplicit false

namespace TreeAudit.Database

structure Walk (α : Type) where
  found : List α
  fault? : Option Fault

namespace Walk

variable {α β : Type}

def nil : Walk α := ⟨[], none⟩

def ofList (found : List α) : Walk α := ⟨found, none⟩

def fail (fault : Fault) : Walk α := ⟨[], some fault⟩

/-- One walk, and another if the first comes to its end. -/
def followedBy (first : Walk α) (second : Unit → Walk α) : Walk α :=
  match first.fault? with
  | some _ => first
  | none =>
    let second := second ()
    ⟨first.found ++ second.found, second.fault?⟩

/-- The walks from all members of a list, one after the other. -/
def flatMap (f : α → Walk β) : List α → Walk β
  | [] => nil
  | member :: rest => (f member).followedBy fun _ ↦ flatMap f rest

/-- Everything found, if the walk comes to its end. -/
def all (walk : Walk α) : Except Fault (List α) :=
  match walk.fault? with
  | some fault => .error fault
  | none => .ok walk.found

/-- A walk to at most `count` findings. -/
def upTo (count : Nat) (walk : Walk α) : Walk α :=
  if count ≤ walk.found.length then ofList (walk.found.take count) else walk

/-- The walks from all findings of another, one after the other, up to where that ends. -/
def flatMapWalk (walk : Walk α) (f : α → Walk β) : Walk β :=
  (flatMap f walk.found).followedBy fun _ ↦ ⟨[], walk.fault?⟩

/-- What each finding amounts to. The walk ends at the first that fails. -/
def mapM (f : α → Except Fault β) (walk : Walk α) : Walk β :=
  walk.flatMapWalk fun member ↦
    match f member with
    | .ok value => ofList [value]
    | .error fault => fail fault

end Walk

end TreeAudit.Database
