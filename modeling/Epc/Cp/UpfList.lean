import Epc.Lib.Inet
import Epc.Lib.Lists

/-! The list of user planes from DNS: `add_dns_result_upflist_entry` and `add_canonical_result_upflist_entry`
with the functions for the two families (`pfcp_messages/pfcp_util.c`), from a new list on. -/

namespace Epc.Cp

open Epc.Lib Epc.Lib.Inet List
open Option hiding mem_map mem_map_of_mem

/-- A result with the name and the hosts of a family that its entry is made of. -/
structure DnsResult where
  hostname : List Char
  hosts : List (List Char)
  deriving DecidableEq, Repr

structure Upf where
  address : List UInt8
  fqdn : List Char
  deriving DecidableEq, Repr

/-- Which function adds the hosts; the two for DNS results do the same. -/
inductive UpfSource where
  | dns
  | canonicalV4
  | canonicalV6
  deriving DecidableEq, Repr

/-- The loop of `add_canonical_result_v6`. `inet_ntop` has 16 octets for the text; a longer one
leaves the array without a value. -/
def foundV6 (host : List Char) : List Upf → Option Bool
  | [] => some false
  | upf :: rest =>
    if 16 ≤ (inetNtop6 upf.address).length then none
    else if host = inetNtop6 upf.address then some true
    else foundV6 host rest

section

variable (pton : List Char → List UInt8)

/-- `match_found` for a host; `add_dns_result_v4` and `_v6` never set it. -/
def UpfSource.found (list : List Upf) (host : List Char) : UpfSource → Option Bool
  | .dns => some false
  | .canonicalV4 => some (pton host ∈ list.map Upf.address)
  | .canonicalV6 => foundV6 host list

/-- The loop over the hosts of a result: one that is not found goes behind the list. -/
def UpfSource.addHosts (source : UpfSource) (list : List Upf) (name : List Char) :
    List (List Char) → Option Upf → Option (Option Upf)
  | [], place => some place
  | host :: rest, place =>
    (source.found pton list host).bind fun found =>
      source.addHosts list name rest (if found then place else some ⟨pton host, name⟩)

/-- The count goes on by one if anything was written. -/
def UpfSource.addResult (source : UpfSource) (list : List Upf) (result : DnsResult) : Option (List Upf) :=
  (source.addHosts pton list result.hostname result.hosts none).map fun place => list ++ place.toList

/-- The list for the results; behind the last one are results without hosts. -/
def UpfSource.upfList (source : UpfSource) (results : List DnsResult) : Option (List Upf) :=
  results.foldlM (source.addResult pton) []

/-- Distinct addresses, each a host of a result with the name, and every result with hosts has one
in the list or all. -/
structure Candidates (results : List DnsResult) (list : List Upf) : Prop where
  distinct : (list.map Upf.address).Nodup
  named : ∀ upf ∈ list, ∃ result ∈ results, result.hostname = upf.fqdn ∧
    upf.address ∈ result.hosts.map pton
  all : ∀ result ∈ results, result.hosts ≠ [] →
    (∃ upf ∈ list, upf.fqdn = result.hostname ∧ upf.address ∈ result.hosts.map pton) ∨
      ∀ host ∈ result.hosts, pton host ∈ list.map Upf.address

def UpfSource.Lists (source : UpfSource) (results : List DnsResult) : Prop :=
  ∃ list, source.upfList pton results = some list ∧ Candidates pton results list

/-- The hosts of a result are told apart by their comparison with the list. -/
def UpfSource.TellsApart (list : List Upf) (hosts : List (List Char)) : UpfSource → Prop
  | .dns => ∀ host ∈ hosts.getLast?, pton host ∉ list.map Upf.address
  | .canonicalV4 => True
  | .canonicalV6 => (∀ host ∈ hosts, (foundV6 host list).isSome) ∧
      ∀ host ∈ (hosts.filter (foundV6 · list = some false)).getLast?, pton host ∉ list.map Upf.address

end

variable {pton : List Char → List UInt8} {source : UpfSource} {results : List DnsResult}
  {result : DnsResult} {list : List Upf} {host : List Char}

theorem foundV6_true (reads : ∀ host, pton (inetNtop6 (pton host)) = pton host)
    (read : ∀ upf ∈ list, ∃ host, upf.address = pton host) (found : foundV6 host list = some true) :
    pton host ∈ list.map Upf.address := by
  induction list with
  | nil => cases found
  | cons upf rest ih =>
    obtain ⟨⟨text, written⟩, readRest⟩ := forall_mem_cons.mp read
    rw [foundV6] at found
    split at found
    · cases found
    · split at found
      · next same =>
        rw [same, written, reads, ← written]
        exact mem_cons_self
      · exact mem_cons_of_mem _ (ih readRest found)

theorem addHosts_eq {hosts : List (List Char)} (compared : ∀ host ∈ hosts, (source.found pton list host).isSome)
    (name : List Char) (place : Option Upf) :
    source.addHosts pton list name hosts place =
      some (((hosts.filter (source.found pton list · = some false)).getLast?.map
        fun host => ⟨pton host, name⟩).or place) := by
  induction hosts generalizing place with
  | nil => rfl
  | cons host rest ih =>
    obtain ⟨here, later⟩ := forall_mem_cons.mp compared
    obtain ⟨found, is⟩ := isSome_iff_exists.mp here
    rw [UpfSource.addHosts, is, bind_some, ih later]
    cases found with
    | true => rw [if_pos rfl, filter_cons_of_neg (by simp [is])]
    | false =>
      rw [if_neg Bool.false_ne_true, filter_cons_of_pos (by simp [is]), getLast?_cons]
      cases (rest.filter (source.found pton list · = some false)).getLast? <;> rfl

theorem compared_of_addHosts {hosts : List (List Char)} {name : List Char} {place place' : Option Upf}
    (added : source.addHosts pton list name hosts place = some place') :
    ∀ host ∈ hosts, (source.found pton list host).isSome := by
  induction hosts generalizing place with
  | nil => exact forall_mem_nil _
  | cons host rest ih =>
    obtain ⟨found, is, added⟩ := bind_eq_some_iff.mp added
    exact forall_mem_cons.mpr ⟨is ▸ rfl, ih added⟩

theorem tellsApart_iff {hosts : List (List Char)} :
    source.TellsApart pton list hosts ↔
      (∀ host ∈ hosts, (source.found pton list host).isSome) ∧
        ∀ host ∈ (hosts.filter (source.found pton list · = some false)).getLast?,
          pton host ∉ list.map Upf.address := by
  cases source with
  | dns => simp [UpfSource.TellsApart, UpfSource.found]
  | canonicalV4 =>
    refine iff_of_true trivial ⟨fun _ _ => rfl, fun host last => ?_⟩
    have unknown := (mem_filter.mp (mem_of_getLast? last)).2
    simpa [UpfSource.found] using unknown
  | canonicalV6 => rfl

theorem found_true (reads : source = .canonicalV6 → ∀ host, pton (inetNtop6 (pton host)) = pton host)
    (candidates : Candidates pton results list) (found : source.found pton list host = some true) :
    pton host ∈ list.map Upf.address := by
  cases source with
  | dns => cases found
  | canonicalV4 => simpa [UpfSource.found] using found
  | canonicalV6 =>
    refine foundV6_true (reads rfl) (fun upf mem => ?_) found
    obtain ⟨result, -, -, isHost⟩ := candidates.named upf mem
    obtain ⟨host, -, same⟩ := mem_map.mp isHost
    exact ⟨host, same.symm⟩

theorem Candidates.concat (candidates : Candidates pton results list) {place : Option Upf}
    (new : ∀ upf ∈ place, upf.address ∉ list.map Upf.address ∧ upf.fqdn = result.hostname ∧
      upf.address ∈ result.hosts.map pton)
    (old : place = none → ∀ host ∈ result.hosts, pton host ∈ list.map Upf.address) :
    Candidates pton (results ++ [result]) (list ++ place.toList) := by
  have grows : list.map Upf.address ⊆ (list ++ place.toList).map Upf.address := by simp
  refine ⟨?_, fun upf mem => ?_, fun r mem some_host => ?_⟩
  · cases place with
    | none => simpa using candidates.distinct
    | some upf =>
      rw [map_append, nodup_append]
      refine ⟨candidates.distinct, nodup_singleton _, fun a mem b last same => (new upf rfl).1 ?_⟩
      obtain rfl : b = upf.address := by simpa using last
      exact same ▸ mem
  · rcases mem_append.mp mem with earlier | here
    · obtain ⟨r, isResult, facts⟩ := candidates.named upf earlier
      exact ⟨r, mem_append_left _ isResult, facts⟩
    · obtain ⟨-, name, isHost⟩ := new upf (Option.mem_toList.mp here)
      exact ⟨result, mem_append_right _ mem_cons_self, name.symm, isHost⟩
  · rcases mem_append.mp mem with earlier | here
    · refine (candidates.all r earlier some_host).imp (fun ⟨upf, inList, facts⟩ => ?_)
        fun known host isHost => grows (known host isHost)
      exact ⟨upf, mem_append_left _ inList, facts⟩
    · obtain rfl := mem_singleton.mp here
      cases place with
      | none => exact .inr fun host isHost => grows (old rfl host isHost)
      | some upf => exact .inl ⟨upf, by simp, (new upf rfl).2⟩

theorem lists_concat_iff (reads : source = .canonicalV6 → ∀ host, pton (inetNtop6 (pton host)) = pton host)
    (candidates : Candidates pton results list) (run : source.upfList pton results = some list) :
    source.Lists pton (results ++ [result]) ↔ source.TellsApart pton list result.hosts := by
  have next : source.upfList pton (results ++ [result]) = source.addResult pton list result := by
    rw [UpfSource.upfList, foldlM_append, ← UpfSource.upfList, run]
    simp
  rw [UpfSource.Lists, next, tellsApart_iff]
  constructor
  · rintro ⟨list', added, candidates'⟩
    obtain ⟨place, written, rfl⟩ := map_eq_some_iff.mp added
    have compared := compared_of_addHosts written
    refine ⟨compared, fun host last known => ?_⟩
    rw [addHosts_eq compared, or_none, last, map_some] at written
    cases written
    have nodup := candidates'.distinct
    rw [map_append, nodup_append] at nodup
    exact nodup.2.2 _ known _ (by simp) rfl
  · rintro ⟨compared, apart⟩
    refine ⟨_, congrArg _ (addHosts_eq compared _ _), ?_⟩
    rw [or_none]
    refine candidates.concat (fun upf isLast => ?_) fun none host isHost => ?_
    · obtain ⟨host, last, rfl⟩ := map_eq_some_iff.mp isLast
      exact ⟨apart host last, rfl, mem_map_of_mem (mem_filter.mp (mem_of_getLast? last)).1⟩
    · rw [map_eq_none_iff, getLast?_eq_none_iff, filter_eq_nil_iff] at none
      obtain ⟨found, is⟩ := isSome_iff_exists.mp (compared host isHost)
      cases found with
      | true => exact found_true reads candidates is
      | false => exact absurd (by simpa using is) (none host isHost)

/-- The list is right after every result exactly if the hosts are told apart: for DNS results the
last host is new, for canonical results with IPv6 hosts every text compared fits in 16 octets and
the last host found in none is new. -/
theorem upfList_right_iff (pton : List Char → List UInt8) (source : UpfSource) (results : List DnsResult)
    (reads : source = .canonicalV6 → ∀ host, pton (inetNtop6 (pton host)) = pton host) :
    (∀ front, front <+: results → source.Lists pton front) ↔
      ∀ before result, before ++ [result] <+: results → ∀ list, source.upfList pton before = some list →
        source.TellsApart pton list result.hosts := by
  refine forall_prefix_iff ⟨[], rfl, nodup_nil, forall_mem_nil _, forall_mem_nil _⟩
    fun before result _ ⟨list, run, candidates⟩ => ?_
  rw [lists_concat_iff reads candidates run]
  exact ⟨fun apart list' run' => some.inj (run.symm.trans run') ▸ apart, fun apart => apart list run⟩

def twoHosts (second : String) : List DnsResult :=
  [⟨"upf1".toList, ["10.0.0.1".toList]⟩, ⟨"upf2".toList, ["10.0.0.2".toList, second.toList]⟩]

def pton4 (host : List Char) : List UInt8 := (inetPton4 host).getD []

/-- `inet_pton` for addresses that are read back as they are printed. -/
def pton6 (host : List Char) : List UInt8 :=
  ((inetPton6 host).filter fun octets => inetPton6 (inetNtop6 octets) = some octets).getD
    (replicate 16 0)

theorem pton6_reads (host : List Char) : pton6 (inetNtop6 (pton6 host)) = pton6 host := by
  rw [pton6.eq_def host]
  cases kept : (inetPton6 host).filter fun octets => inetPton6 (inetNtop6 octets) = some octets with
  | none => decide +kernel
  | some octets =>
    have back := of_decide_eq_true (filter_eq_some_iff.mp kept).2
    rw [getD_some, pton6, back, filter_some, if_pos (decide_eq_true back), getD_some]

def twoHostsV6 : List DnsResult :=
  [⟨"upf1".toList, ["fe80::1".toList]⟩, ⟨"upf2".toList, ["fe80::1".toList, "fe80::2".toList]⟩]

theorem upfList_right_twoHosts : UpfSource.canonicalV4.Lists pton4 (twoHosts "10.0.0.1") ∧
    UpfSource.canonicalV6.Lists pton6 twoHostsV6 := by
  refine ⟨(upfList_right_iff pton4 .canonicalV4 _ nofun).mpr (fun _ _ _ _ _ => trivial) _
    (prefix_refl _), (upfList_right_iff pton6 .canonicalV6 _ fun _ => pton6_reads).mpr ?_ _
    (prefix_refl _)⟩
  rintro before result ⟨rest, split⟩ list run
  match before with
  | [] | [first] =>
    cases split
    cases run
    exact ⟨by decide +kernel, by decide +kernel⟩
  | _ :: _ :: _ => simp [twoHostsV6] at split

/-- The last host of the second result is that of the first. -/
theorem repeated_upf_listed :
    (UpfSource.dns.upfList pton4 (twoHosts "10.0.0.1")).map (map Upf.address) =
      some [[10, 0, 0, 1], [10, 0, 0, 1]] := by
  decide +kernel

end Epc.Cp
