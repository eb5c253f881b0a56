/-! # Backlogs

What has come and still waits, in the order in which it came. A backlog keeps the newest item in
front, so that one more costs the same however many wait; `toList` gives the oldest first, and two
backlogs with the same list are the same.
-/
set_option autoImplicit false

namespace Courier

structure Backlog (α : Type) where
  newestFirst : List α
deriving DecidableEq

namespace Backlog

variable {α : Type}

def empty : Backlog α := ⟨[]⟩

/-- What waits, oldest first. -/
def toList (b : Backlog α) : List α := b.newestFirst.reverse

/-- These items wait, the oldest first. -/
def ofList (items : List α) : Backlog α := ⟨items.reverse⟩

def push (b : Backlog α) (item : α) : Backlog α := ⟨item :: b.newestFirst⟩

def isEmpty (b : Backlog α) : Bool := b.newestFirst.isEmpty

def size (b : Backlog α) : Nat := b.newestFirst.length

/-! ## What the operations do to the list -/

@[simp] theorem toList_empty : (empty : Backlog α).toList = [] := rfl

@[simp] theorem toList_ofList (items : List α) : (ofList items).toList = items :=
  List.reverse_reverse items

@[simp] theorem ofList_toList (b : Backlog α) : ofList b.toList = b := by
  rw [toList, ofList, List.reverse_reverse]

@[simp] theorem toList_push (b : Backlog α) (item : α) :
    (b.push item).toList = b.toList ++ [item] := List.reverse_cons

@[simp] theorem length_toList (b : Backlog α) : b.toList.length = b.size := List.length_reverse

@[simp] theorem isEmpty_toList (b : Backlog α) : b.toList.isEmpty = b.isEmpty :=
  List.isEmpty_reverse

theorem eq_of_toList_eq {a b : Backlog α} (h : a.toList = b.toList) : a = b := by
  rw [← ofList_toList a, h, ofList_toList]

end Backlog
end Courier
