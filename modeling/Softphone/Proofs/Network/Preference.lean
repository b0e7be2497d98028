import Mathlib.Data.List.Induction
import Mathlib.Data.List.Nodup
import Softphone.Network.Resolvers

/-!
# Which name server comes first

The list of a platform has the servers of its networks in their order of preference, each where it first comes up
(`ResolverList.collect_prefers`). A network that comes later keeps its own order among the servers that none before
it has; those that it shares stay where they are (`ResolverList.order_turned_sharedServer`).
-/

namespace Softphone

namespace ResolverList

variable {servers more : List Address} {a b : Address} {p : Platform}

/-- The places of a list where something comes up first. -/
def firstOccurrences (servers : List Address) : List Address :=
  (servers.zipIdx.filter fun e => servers.idxOf e.1 = e.2).map (·.1)

theorem firstOccurrences_concat : firstOccurrences (servers ++ [a]) =
    firstOccurrences servers ++ if a ∈ servers then [] else [a] := by
  have hbefore : servers.zipIdx.filter (fun e => (servers ++ [a]).idxOf e.1 = e.2) =
      servers.zipIdx.filter fun e => servers.idxOf e.1 = e.2 := by
    refine List.filter_congr fun e he => ?_
    rw [List.idxOf_append_of_mem (List.fst_mem_of_mem_zipIdx he)]
  rw [firstOccurrences, List.zipIdx_append, List.filter_append, List.map_append, hbefore]
  congr 1
  by_cases ha : a ∈ servers
  · have hplace : servers.idxOf a ≠ servers.length := Nat.ne_of_lt (List.idxOf_lt_length_of_mem ha)
    simp [ha, List.idxOf_append_of_mem, hplace]
  · simp [ha, List.idxOf_append_of_notMem]

theorem mem_firstOccurrences : a ∈ firstOccurrences servers ↔ a ∈ servers := by
  induction servers using List.reverseRecOn with
  | nil => rfl
  | append_singleton servers b ih =>
    rw [firstOccurrences_concat, List.mem_append, List.mem_append, ih]
    by_cases hb : b ∈ servers
    · rw [if_pos hb, List.mem_singleton]
      exact ⟨fun h => .inl (h.resolve_right List.not_mem_nil), fun h => .inl (h.elim id (· ▸ hb))⟩
    · rw [if_neg hb]

theorem nodup_firstOccurrences (servers : List Address) : (firstOccurrences servers).Nodup := by
  induction servers using List.reverseRecOn with
  | nil => exact List.nodup_nil
  | append_singleton servers b ih =>
    rw [firstOccurrences_concat]
    split
    · rwa [List.append_nil]
    · rename_i hnew
      exact List.concat_eq_append ▸ ih.concat (mem_firstOccurrences.not.2 hnew)

/-- A list without repetitions is left as it is. -/
theorem firstOccurrences_of_nodup (h : servers.Nodup) : firstOccurrences servers = servers := by
  induction servers using List.reverseRecOn with
  | nil => rfl
  | append_singleton servers b ih =>
    obtain ⟨hservers, -, hnew⟩ := List.nodup_append.1 h
    have hb : b ∉ servers := fun hmem => hnew b hmem b (List.mem_singleton_self b) rfl
    rw [firstOccurrences_concat, if_neg hb, ih hservers]

/-- Whatever one looks for in a list, it is found in the same place. -/
theorem find?_firstOccurrences (servers : List Address) (q : Address → Bool) :
    (firstOccurrences servers).find? q = servers.find? q := by
  induction servers using List.reverseRecOn with
  | nil => rfl
  | append_singleton servers b ih =>
    rw [firstOccurrences_concat, List.find?_append, List.find?_append, ih]
    split
    · rename_i hb
      cases hfind : servers.find? q with
      | some _ => rfl
      | none =>
        rw [List.find?_cons_of_neg (List.find?_eq_none.1 hfind b hb)]
    · rfl

theorem servers_ofList (servers : List Address) : (ofList servers).servers = firstOccurrences servers := by
  induction servers using List.reverseRecOn with
  | nil => rfl
  | append_singleton servers b ih =>
    have hpushed : ofList (servers ++ [b]) = (ofList servers).push b := List.foldl_concat ..
    rw [hpushed, firstOccurrences_concat, push, ih]
    simp only [mem_firstOccurrences]
    split
    · rw [ih, List.append_nil]
    · rfl

/-- One of two elements comes up before the other exactly if it is the first of both that one finds. -/
theorem idxOf_lt_idxOf_iff : servers.idxOf a < servers.idxOf b ↔
    a ≠ b ∧ servers.find? (fun c => c = a ∨ c = b) = some a := by
  induction servers with
  | nil => exact iff_of_false (Nat.lt_irrefl 0) fun h => nomatch h.2
  | cons c servers ih =>
    by_cases hca : c = a
    · subst hca
      rw [List.idxOf_cons_self, List.find?_cons_of_pos (by simp)]
      by_cases hcb : c = b
      · subst hcb
        simp
      · rw [List.idxOf_cons_ne servers hcb]
        exact iff_of_true (Nat.succ_pos _) ⟨hcb, rfl⟩
    · rw [List.idxOf_cons_ne servers hca]
      by_cases hcb : c = b
      · subst hcb
        rw [List.idxOf_cons_self, List.find?_cons_of_pos (by simp)]
        exact iff_of_false (Nat.not_lt_zero _) fun h => hca (Option.some.inj h.2)
      · rw [List.idxOf_cons_ne servers hcb, List.find?_cons_of_neg (by simp [hca, hcb]), ← ih]
        exact Nat.succ_lt_succ_iff

end ResolverList

/-- The networks whose name servers are used, in order of preference: the active one, also when it is not attached,
and then the other attached ones. -/
def Platform.preference (p : Platform) : List NetworkId :=
  p.active.toList ++ p.attached.filter fun network => some network ≠ p.active

namespace ResolverList

variable {servers more : List Address} {a b : Address} {p : Platform} {network : NetworkId}

theorem mem_preference_iff :
    network ∈ p.preference ↔ p.active = some network ∨ network ∈ p.attached := by
  rw [Platform.preference, List.mem_append, Option.mem_toList, List.mem_filter, decide_eq_true_eq]
  constructor
  · exact fun h => h.imp_right And.left
  · intro h
    by_cases hactive : p.active = some network
    · exact .inl hactive
    · exact .inr ⟨h.resolve_left hactive, Ne.symm hactive⟩

theorem mem_serversOf_iff : a ∈ serversOf p network ↔
    ∃ properties, p.properties network = some properties ∧ a ∈ properties.dnsServers := by
  unfold serversOf
  cases p.properties network <;> simp

theorem collect_eq (p : Platform) : collect p = ofList (p.preference.flatMap (serversOf p)) := by
  have hactive : (p.active.map (serversOf p)).getD [] = p.active.toList.flatMap (serversOf p) := by
    cases p.active with
    | none => rfl
    | some network => exact (List.flatMap_singleton ..).symm
  rw [collect, Platform.preference, List.flatMap_append, ← hactive]

/-- What a list of name servers has to be for a platform. The network before which there is none is the active one,
so its servers keep their order; of two servers of another network the one that the network has first comes first,
unless a network before it has the other one. -/
structure Prefers (p : Platform) (list : ResolverList) : Prop where
  servers : list.servers = firstOccurrences (p.preference.flatMap (serversOf p))
  nodup : list.servers.Nodup
  mem_iff (server : Address) : server ∈ list.servers ↔
    ∃ network, (p.active = some network ∨ network ∈ p.attached) ∧
      ∃ properties, p.properties network = some properties ∧ server ∈ properties.dnsServers
  /-- A server of the active network comes before all that it does not name. -/
  active_first {network : NetworkId} (hactive : p.active = some network) {a b : Address}
    (ha : a ∈ serversOf p network) (hb : b ∉ serversOf p network) : list.servers.idxOf a < list.servers.idxOf b
  order {before later : List NetworkId} {network : NetworkId} (h : p.preference = before ++ network :: later)
    {a b : Address} (hb : ∀ earlier ∈ before, b ∉ serversOf p earlier)
    (hab : (serversOf p network).idxOf a < (serversOf p network).idxOf b) :
    list.servers.idxOf a < list.servers.idxOf b

theorem servers_collect (p : Platform) :
    (collect p).servers = firstOccurrences (p.preference.flatMap (serversOf p)) := by
  rw [collect_eq, servers_ofList]

/-- Of two servers the one that comes up first on a network comes first, unless the other one is on a network
before it. -/
theorem idxOf_collect_lt {before later : List NetworkId} (h : p.preference = before ++ network :: later)
    (hb : ∀ earlier ∈ before, b ∉ serversOf p earlier)
    (hab : (serversOf p network).idxOf a < (serversOf p network).idxOf b) :
    (collect p).servers.idxOf a < (collect p).servers.idxOf b := by
  rw [idxOf_lt_idxOf_iff] at hab ⊢
  refine ⟨hab.1, ?_⟩
  rw [servers_collect, find?_firstOccurrences, h, List.flatMap_append, List.flatMap_cons, List.find?_append,
    List.find?_append, hab.2]
  cases hfind : (before.flatMap (serversOf p)).find? (fun c => c = a ∨ c = b) with
  | none => rfl
  | some c =>
    -- What is found before can be `a` only, since no network before has `b`.
    obtain ⟨earlier, hearlier, hc⟩ := List.mem_flatMap.1 (List.mem_of_find?_eq_some hfind)
    have hone : c = a ∨ c = b := by simpa using List.find?_some hfind
    rcases hone with rfl | rfl
    · rfl
    · exact absurd hc (hb earlier hearlier)

theorem preference_of_active (hactive : p.active = some network) : ∃ later, p.preference = network :: later := by
  rw [Platform.preference, hactive]
  exact ⟨_, rfl⟩

theorem prefers (p : Platform) : Prefers p (collect p) where
  servers := servers_collect p
  nodup := by
    rw [servers_collect]
    exact nodup_firstOccurrences _
  mem_iff server := by
    simp only [servers_collect, mem_firstOccurrences, List.mem_flatMap, mem_preference_iff, mem_serversOf_iff]
  active_first hactive _ _ ha hb := by
    obtain ⟨later, hlater⟩ := preference_of_active hactive
    refine idxOf_collect_lt (hlater.trans (List.nil_append _).symm) (List.forall_mem_nil _) ?_
    rw [List.idxOf_eq_length hb]
    exact List.idxOf_lt_length_of_mem ha
  order h _ _ hb hab := idxOf_collect_lt h hb hab

theorem ofList_eq_iff : ofList servers = ofList more ↔ firstOccurrences servers = firstOccurrences more := by
  rw [← servers_ofList, ← servers_ofList]
  exact ⟨fun h => h ▸ rfl, fun h => congrArg ResolverList.mk h⟩

/-- A list that was made once is left as it is. -/
theorem ofList_servers (servers : List Address) : ofList (ofList servers).servers = ofList servers := by
  rw [ofList_eq_iff, servers_ofList]
  exact firstOccurrences_of_nodup (nodup_firstOccurrences servers)

/-- **The preference of name servers.** The list of a platform has the servers of the active network and then those
of the others, each where it first comes up; and two lists of servers come to the same exactly if these places are
the same in them. -/
theorem collect_prefers (p : Platform) : Prefers p (collect p) ∧
    ∀ servers : List Address, ofList (ofList servers).servers = ofList servers ∧
      ∀ more, ofList servers = ofList more ↔ firstOccurrences servers = firstOccurrences more :=
  ⟨prefers p, fun servers => ⟨ofList_servers servers, fun _ => ofList_eq_iff⟩⟩

/-- Two networks, of which the second has a server of its own before the one of the first. -/
def sharedServer : Platform where
  attached := [⟨1⟩, ⟨2⟩]
  properties network :=
    if network = ⟨1⟩ then some { dnsServers := [.v4 0x01010101] }
    else if network = ⟨2⟩ then some { dnsServers := [.v4 0x08080808, .v4 0x01010101] }
    else none

/-- In the list the servers of the second network stand the other way round. -/
theorem order_turned_sharedServer : ¬ ∀ network ∈ sharedServer.attached,
    ∀ a ∈ serversOf sharedServer network, ∀ b ∈ serversOf sharedServer network,
      (serversOf sharedServer network).idxOf a < (serversOf sharedServer network).idxOf b →
        (collect sharedServer).servers.idxOf a < (collect sharedServer).servers.idxOf b := by
  decide

end ResolverList

end Softphone
