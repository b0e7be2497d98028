import Softphone.Json.Decode

/-!
# Sounds and routes

The words for what the audio of the device can be asked and told.
-/

namespace Softphone

/-- Where sound comes out. -/
inductive AudioRoute
  | earpiece
  | speaker
  deriving DecidableEq, Repr

namespace AudioRoute

def text : AudioRoute → String
  | earpiece => "earpiece"
  | speaker => "speaker"

def toJson : AudioRoute → Json
  | earpiece => .str "Earpiece"
  | speaker => .str "Speaker"

def ofJson? : Json → Option AudioRoute :=
  Json.choice? [("Earpiece", earpiece), ("Speaker", speaker)]

end AudioRoute

/-- The mode of the audio of the device. -/
inductive AudioMode
  | normal
  | inCommunication
  deriving DecidableEq, Repr

namespace AudioMode

def toJson : AudioMode → Json
  | normal => .str "Normal"
  | inCommunication => .str "InCommunication"

def ofJson? : Json → Option AudioMode :=
  Json.choice? [("Normal", normal), ("InCommunication", inCommunication)]

end AudioMode

/-- How the user wants to be called. -/
inductive RingerMode
  | silent
  | vibrate
  | normal
  deriving DecidableEq, Repr

namespace RingerMode

def toJson : RingerMode → Json
  | silent => .str "Silent"
  | vibrate => .str "Vibrate"
  | normal => .str "Normal"

def ofJson? : Json → Option RingerMode :=
  Json.choice? [("Silent", silent), ("Vibrate", vibrate), ("Normal", normal)]

end RingerMode

/-- A stream with a volume of its own. -/
inductive AudioStream
  | music
  | voiceCall
  deriving DecidableEq, Repr

namespace AudioStream

def toJson : AudioStream → Json
  | music => .str "Music"
  | voiceCall => .str "VoiceCall"

def ofJson? : Json → Option AudioStream :=
  Json.choice? [("Music", music), ("VoiceCall", voiceCall)]

end AudioStream

/-- A tone of the call itself. -/
inductive Tone
  | ringback
  | busy
  deriving DecidableEq, Repr

namespace Tone

def toJson : Tone → Json
  | ringback => .str "Ringback"
  | busy => .str "Busy"

def ofJson? : Json → Option Tone :=
  Json.choice? [("Ringback", ringback), ("Busy", busy)]

/-- The resource with the tone of a country. -/
def resource (tone : Tone) (country : String) : String :=
  match tone with
  | ringback => "ringback_" ++ country
  | busy => "busy_" ++ country

end Tone

end Softphone
