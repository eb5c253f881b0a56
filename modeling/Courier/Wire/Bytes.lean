/-! # Byte strings

A byte string is a packed array of bytes. Every type that holds one decides equality by this
instance, so that it is the same decision everywhere.
-/
set_option autoImplicit false

namespace Courier.Wire

instance decidableEqBytes : DecidableEq ByteArray := ByteArray.decEq

end Courier.Wire
