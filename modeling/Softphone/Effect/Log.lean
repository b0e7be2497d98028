import Softphone.Address.Json
import Softphone.Effect

/-!
# The log

Every effect on the world outside has one entry: the name of what was done, and then its arguments. An
outcome stands in the log only where the request answers with it.
-/

namespace Softphone

namespace Effect

/-- An entry of the log. -/
def entry (name : String) (arguments : List Json) : Option Json :=
  some (.arr (.str name :: arguments))

/-- The entry of an effect in the log: what was done, and with what. Events and replies have none. -/
def logLine? : Effect → Option Json
  | .allocateAgent account _ => entry "allocate_agent" [.str account.aor]
  | .register agent _ => entry "register" [agent.toJson]
  | .unregister agent _ => entry "unregister" [agent.toJson]
  | .allocateCall agent _ => entry "allocate_call" [agent.toJson]
  | .connect call target _ => entry "connect" [call.toJson, .str target]
  | .answer _ call _ => entry "answer" [call.toJson]
  | .hangup _ call code reason _ => entry "hangup" [call.toJson, .nat code, .str reason]
  | .hold call held _ => entry "hold" [call.toJson, .bool held]
  | .transfer call target _ => entry "transfer" [call.toJson, .str target]
  | .sendDigit call digit _ => entry "send_dtmf" [call.toJson, .str (String.singleton digit)]
  | .muteAll muted => entry "mute_all" [.bool muted]
  | .addAddress a interface _ => entry "add_address" [a.toJson, .str interface]
  | .removeAddress a _ => entry "remove_address" [a.toJson]
  | .resetTransport registers reinvites _ =>
    entry "reset_transport" [.bool registers, .bool reinvites]
  | .setResolvers servers _ => entry "set_dns_servers" [.list Endpoint.toJson servers]
  | .acquireLock => entry "acquire_lock" []
  | .releaseLock => entry "release_lock" []
  | .applyRoute route applied => entry "apply_route" [route.toJson, .bool applied]
  | .clearRoute => entry "clear_route" []
  | .setMode mode => entry "set_mode" [mode.toJson]
  | .setVolume stream volume => entry "set_stream_volume" [stream.toJson, .nat volume]
  | .abandonFocus => entry "abandon_focus" []
  | .startRingtone looping => entry "start_ringtone" [.bool looping]
  | .stopRingtone => entry "stop_ringtone" []
  | .playTone tone resource looping started =>
    entry "play_tone" [tone.toJson, .str resource, .bool looping, .bool started]
  | .stopTone => entry "stop_tone" []
  | .vibrate ms => entry "vibrate" [.nat ms]
  | .cancelVibration => entry "cancel_vibration" []
  | .publish _ => none
  | .reply _ _ => none

end Effect

end Softphone
