import CilAssembly.Listing
import CilAssembly.Stop

/-! Writing a listing to a device. -/
namespace CilAssembly.Listing

/-- Writes a listing to a device with room for a number of bytes. Returns how many were written. -/
def writeTo (listing : Listing) (room : Nat) : Except Failure Nat :=
  let size := listing.render.utf8ByteSize
  if size ≤ room then .ok size else .error (.cannotWrite "no room left")

end CilAssembly.Listing
