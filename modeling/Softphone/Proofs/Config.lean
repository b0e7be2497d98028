import Softphone.Account
import Softphone.Config
import Softphone.Proofs.Address.Written
import Softphone.Proofs.Json.Decode
import Softphone.Proofs.Json.Written

/-!
# Configurations and accounts in JSON

A configuration and an account are read back from the text of their JSON, whatever their strings are, and what is
read as a configuration passes its check.
-/

namespace Softphone

open Json (Plain)

namespace AddressFamily

@[simp] theorem ofJson?_toJson (family : AddressFamily) : ofJson? family.toJson = some family := by
  cases family <;> rfl

theorem plain_toJson (family : AddressFamily) : Plain family.toJson := by
  cases family <;> exact .str _

end AddressFamily

@[simp] theorem Address.ofJson?_toJson (a : Address) : ofJson? a.toJson = some a :=
  parse?_text a

namespace DnsMode

@[simp] theorem ofJson?_toJson (dns : DnsMode) : ofJson? dns.toJson = some dns := by
  cases dns with
  | dynamic => rfl
  | static servers =>
    have hservers := Json.list?_list Address.ofJson?_toJson servers
    rw [toJson, ofJson?]
    simp [Json.record, Json.case?, hservers]

theorem plain_toJson (dns : DnsMode) : Plain dns.toJson := by
  cases dns with
  | dynamic => exact .str _
  | static servers =>
    refine .record (List.forall_mem_singleton.2 ?_)
    exact .list (fun a => .str a.text) servers

end DnsMode

namespace NetworkSettings

@[simp] theorem ofJson?_toJson (s : NetworkSettings) : ofJson? s.toJson = some s := by
  unfold ofJson? toJson
  rw [Json.record?_record (by simp) (by simp)]
  simp [Json.Record.withDefault, List.lookup_cons]

theorem plain_toJson (s : NetworkSettings) : Plain s.toJson := by
  refine .record ?_
  simp [AddressFamily.plain_toJson, DnsMode.plain_toJson, Plain.nat]

end NetworkSettings

namespace AudioSettings

@[simp] theorem ofJson?_toJson (s : AudioSettings) : ofJson? s.toJson = some s := by
  unfold ofJson? toJson
  rw [Json.record?_record (by simp) (by simp)]
  simp [Json.Record.withDefault, List.lookup_cons, Json.str?]

theorem plain_toJson (s : AudioSettings) : Plain s.toJson := by
  refine .record ?_
  simp [Plain.nat, Plain.str]

end AudioSettings

namespace Account

@[simp] theorem ofJson?_toJson (a : Account) : ofJson? a.toJson = some a := by
  have hexpires : Json.opt? Json.uint32? (.opt (fun n : UInt32 => .nat n.toNat) a.expires) = some a.expires :=
    Json.opt?_opt Json.uint32?_nat nofun a.expires
  unfold ofJson? toJson
  rw [Json.record?_record (by simp) (by simp)]
  simp [Json.Record.withDefault, Json.Record.required, List.lookup_cons, Json.str?, hexpires]

theorem plain_toJson (a : Account) : Plain a.toJson := by
  refine .record ?_
  simp [Plain.opt, Plain.nat, Plain.str]

/-- An account is read back from the text of its JSON. -/
theorem ofJson?_parse?_text (a : Account) : (Json.parse? a.toJson.text).bind ofJson? = some a := by
  rw [Json.parse?_text a.plain_toJson, Option.bind_some, ofJson?_toJson]

end Account

namespace Config

@[simp] theorem ofJson?_toJson (c : Config) : ofJson? c.toJson = some c := by
  unfold ofJson? toJson
  rw [Json.record?_record (by simp) (by simp)]
  simp [Json.Record.withDefault, List.lookup_cons]

theorem plain_toJson (c : Config) : Plain c.toJson := by
  refine .record ?_
  simp [NetworkSettings.plain_toJson, AudioSettings.plain_toJson, Plain.nat]

/-- The text of a configuration is read as what the check makes of the configuration. -/
theorem parse_text (c : Config) : parse c.toJson.text = c.check.map fun _ => c := by
  rw [parse, load, Json.parse?_text c.plain_toJson, Option.bind_some, ofJson?_toJson]

/-- What is read as a configuration passes its check. -/
theorem check_of_load {c : Config} {j : Option Json} (h : load j = .ok c) : c.check = .ok () := by
  unfold load at h
  split at h
  · cases h
  · rename_i read _
    cases hcheck : read.check with
    | error e =>
      rw [hcheck] at h
      cases h
    | ok =>
      rw [hcheck] at h
      cases h
      exact hcheck

/-- **Configurations in JSON.** A configuration that passes its check is read back from its text, every text that
is accepted writes a configuration that passes its check, and an account is read back from its text. -/
theorem read_back :
    (∀ c : Config, c.check = .ok () → parse c.toJson.text = .ok c) ∧
    (∀ text c, parse text = .ok c → c.check = .ok ()) ∧
    ∀ a : Account, (Json.parse? a.toJson.text).bind Account.ofJson? = some a := by
  refine ⟨fun c hcheck => ?_, fun text c hread => check_of_load hread, Account.ofJson?_parse?_text⟩
  rw [parse_text, hcheck]
  rfl

/-- A configuration with name servers of both versions and a country whose name is written with escapes. -/
def escaped : Config :=
  { network.dns := .static [.v4 0x0A000001, .v6 0xFE80_0000_0000_0000_0000_0000_0000_0001]
    audio.toneCountry := "\"u\\s\"\n" }

theorem read_back_escaped : escaped.check = .ok () ∧ parse escaped.toJson.text = .ok escaped :=
  have hread := read_back.1 escaped rfl
  ⟨read_back.2.1 escaped.toJson.text escaped hread, hread⟩

end Config

end Softphone
