/-!
# Room for payloads

Whether a payload finds room is up to the host of an endpoint. A host decides it by
the size of the payload alone, and none holds a payload of `1 <<< 63` octets or more.
-/

namespace WebSocket

/-- What a host has room for. -/
structure Memory where
  /-- Whether a payload of this many octets finds room. -/
  hasRoom : Nat → Bool
  /-- Payloads that find room have sizes of 63 bits. -/
  size_lt_of_hasRoom : ∀ {size : Nat}, hasRoom size = true → size < 1 <<< 63

namespace Memory

/-- A host with room for exactly the payloads of fewer than `capacity` octets. -/
def ofCapacity (capacity : Nat) (small : capacity ≤ 1 <<< 63) : Memory where
  hasRoom size := decide (size < capacity)
  size_lt_of_hasRoom := by
    intro size room
    exact Nat.lt_of_lt_of_le (of_decide_eq_true room) small

/-- A host whose addresses have 47 bits. -/
def standard : Memory := ofCapacity (1 <<< 47) (by decide)

@[simp] theorem hasRoom_standard (size : Nat) :
    standard.hasRoom size = decide (size < 1 <<< 47) := rfl

end Memory
end WebSocket
