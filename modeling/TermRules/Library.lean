import TermRules.Text.Address

/-!
What checks leave to the libraries beneath them, which differ from one edition to the next: taking
web addresses apart and the names of characters.
-/

namespace TermRules

class Library where
  address : String → Except Text.Address.Fault Text.Address
  character? : String → Option Char

end TermRules
