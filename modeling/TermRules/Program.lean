import TermRules.Config
import TermRules.Library
import TermRules.Options

/-!
The surroundings that the program runs in: a lenient reader of web addresses, no names for
characters, and the readers of terms, options and configurations that are defined beside these.
What is said of checks and of compilation holds in other surroundings as well, so that these ones
are used only where this namespace is open.
-/

namespace TermRules.Program

scoped instance : Library where
  address := Text.Address.ofText .lenient
  character? _ := none

scoped instance : Readable Term where
  read entries := Term.read (.mapping entries)

scoped instance : Readable Options where
  read entries := Options.read (.mapping entries)

scoped instance : Readable Config where
  read := Config.read

end TermRules.Program
