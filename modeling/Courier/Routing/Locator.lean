import Courier.Wire.Label

/-! # Locators

A word computed from an address, to group addresses by. Different addresses can have the same
locator, as "Aa" and "BB" do.
-/
set_option autoImplicit false

namespace Courier.Routing

/-- A byte as a word, with its sign kept. -/
def signExtend (b : UInt8) : UInt32 := b.toInt8.toInt32.toUInt32

/-- The polynomial in 31 over the bytes, that begins with 1; words wrap around. -/
def locator (a : Wire.Address) : UInt32 :=
  a.toList.foldl (fun word b => word * 31 + signExtend b) 1

end Courier.Routing
