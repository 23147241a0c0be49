import SliverOS.Bytes.Memory

/-!
# Accesses to a memory

Computations that read a memory, with the addresses they read (`Access`). What a
sequence reads is what its first part reads, and then what the rest reads given the
value of it (`addresses_bind`).
-/

namespace Bytes

/-- A computation that reads a memory: its value, and the addresses read. -/
def Access (α : Type) := Memory → α × List ℕ

namespace Access

/-- The value of a computation. -/
def value {α : Type} (x : Access α) (m : Memory) : α := (x m).1

/-- The addresses that a computation reads. -/
def addresses {α : Type} (x : Access α) (m : Memory) : List ℕ := (x m).2

instance : Monad Access where
  pure a := fun _ => (a, [])
  bind x f := fun m => ((f (x.value m)).value m, x.addresses m ++ (f (x.value m)).addresses m)

/-- `n` bytes are read from an address on, for something that depends on them. -/
def read {α : Type} (a n : ℕ) (decode : List UInt8 → α) : Access α := fun m =>
  (decode (slice m a n), List.range' a n)

variable {α β : Type} {m : Memory}

@[simp] theorem value_pure (a : α) : (pure a : Access α).value m = a := rfl

@[simp] theorem addresses_pure (a : α) : (pure a : Access α).addresses m = [] := rfl

@[simp] theorem value_bind (x : Access α) (f : α → Access β) :
    (x >>= f).value m = (f (x.value m)).value m := rfl

@[simp] theorem addresses_bind (x : Access α) (f : α → Access β) :
    (x >>= f).addresses m = x.addresses m ++ (f (x.value m)).addresses m := rfl

@[simp] theorem value_read (a n : ℕ) (decode : List UInt8 → α) :
    (read a n decode).value m = decode (slice m a n) := rfl

@[simp] theorem addresses_read (a n : ℕ) (decode : List UInt8 → α) :
    (read a n decode).addresses m = List.range' a n := rfl

@[simp] theorem value_ite (c : Prop) [Decidable c] (x y : Access α) :
    (if c then x else y).value m = if c then x.value m else y.value m := by
  split <;> rfl

@[simp] theorem addresses_ite (c : Prop) [Decidable c] (x y : Access α) :
    (if c then x else y).addresses m = if c then x.addresses m else y.addresses m := by
  split <;> rfl

end Access

end Bytes
