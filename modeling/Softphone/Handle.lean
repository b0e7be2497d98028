import Softphone.Json.Decode

/-!
# Handles

Names that the engine and the platform give to the things they own. They mean nothing to anybody
else and are only compared.
-/

namespace Softphone

/-- A user agent of the engine, one for each account in use. -/
structure AgentHandle where
  raw : UInt64
  deriving DecidableEq, Repr

/-- A call of the engine. -/
structure CallHandle where
  raw : UInt64
  deriving DecidableEq, Repr

/-- A network the platform is attached to. -/
structure NetworkId where
  raw : UInt64
  deriving DecidableEq, Repr

namespace AgentHandle

def text (h : AgentHandle) : String := "agent#" ++ toString h.raw.toNat

def toJson (h : AgentHandle) : Json := .nat h.raw.toNat

def ofJson? (j : Json) : Option AgentHandle := j.uint64?.map mk

end AgentHandle

namespace CallHandle

def text (h : CallHandle) : String := "call#" ++ toString h.raw.toNat

def toJson (h : CallHandle) : Json := .nat h.raw.toNat

def ofJson? (j : Json) : Option CallHandle := j.uint64?.map mk

end CallHandle

namespace NetworkId

def text (n : NetworkId) : String := "net#" ++ toString n.raw.toNat

def toJson (n : NetworkId) : Json := .nat n.raw.toNat

def ofJson? (j : Json) : Option NetworkId := j.uint64?.map mk

end NetworkId

end Softphone
