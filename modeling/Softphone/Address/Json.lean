import Softphone.Address.Printer
import Softphone.Address.Reader
import Softphone.Json.Decode

/-!
# Addresses in JSON

Addresses and endpoints are strings in their written form.
-/

namespace Softphone

def Address.toJson (a : Address) : Json := .str a.text

def Address.ofJson? (j : Json) : Option Address := j.str?.bind parse?

def Endpoint.toJson (e : Endpoint) : Json := .str e.text

end Softphone
