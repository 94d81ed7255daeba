import Stencil.Data
import Stencil.Yaml.Load

/-!
# Documents as data

A loader for a part of YAML. A fault of the form of a document makes it no document; a fault of a single value is
of the class that such values fail with.
-/

namespace Stencil.Yaml

def Fault.loadFault (f : Fault) : LoadFault :=
  match f with
  | .malformed => .malformed []
  | .numeral _ => .unexpected .value f.message
  | .calendar .overflow => .unexpected .overflow f.message
  | .calendar _ => .unexpected .value f.message
  | .unhashable _ => .unexpected .type f.message
  | .codePoint n => .unexpected (if n < 0x80000000 then .value else .overflow) f.message

def loader : Loader := fun s => (load s).mapError Fault.loadFault

end Stencil.Yaml
