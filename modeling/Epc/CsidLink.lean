import Epc.Cp.SessCsid

/-! How a local CSID is linked with the CSIDs of a peer: `link_gtpc_peer_csids`,
`link_peer_csid_with_local_csid` and `update_peer_csid_link` (`pfcp_messages/csid_api.c`). An access past an
array has no result, nor has a return of -1. -/

namespace Epc.CsidLink

open Epc.Lib Epc.Up.Cleanup List Table
open Option hiding or_assoc

/-- The local CSIDs by peer CSID, as the arrays have them. -/
abbrev CsidArrays := Table CsidKey (List UInt16)

def push (csid : UInt16) (linked : List UInt16) : Option (List UInt16) :=
  if linked.length < maxCsid then some (linked ++ [csid]) else none

/-- The `while` loop of `update_peer_csid_link`, as often as the array is long. -/
def addWhile (csid : UInt16) : Nat → Nat → List UInt16 → Option (List UInt16)
  | 0, _, _ => none
  | fuel + 1, itr, linked =>
    match linked[itr]? with
    | none => some linked
    | some other =>
      if other ≠ csid then (push csid linked).bind (addWhile csid fuel (itr + 1))
      else some linked

inductive Linker where
  | gtpcPeer
  | peerWithLocal
  | update
  deriving DecidableEq, Repr

/-- `fill_node_addr_info` on a key of zeros; the other two copy the address. -/
def Linker.node (node : NodeAddress) : Linker → NodeAddress
  | .gtpcPeer =>
    if Cp.SessFqcsid.isIpv4 node then { NodeAddress.zero with ipType := node.ipType, ipv4Addr := node.ipv4Addr }
    else { NodeAddress.zero with ipType := node.ipType, ipv6Addr := node.ipv6Addr }
  | _ => node

/-- The loop body over the peer's CSIDs: the new array, and whether to go on. -/
def Linker.round (csid : UInt16) (linked : List UInt16) : Linker → Option (List UInt16 × Bool)
  | .gtpcPeer => if csid ∈ linked then some (linked, false) else (push csid linked).map (·, true)
  | .peerWithLocal => if csid ∈ linked then some (linked, true) else (push csid linked).map (·, true)
  | .update =>
    (if linked = [] then push csid linked else addWhile csid (maxCsid + 1) 0 linked).map (·, true)

def Linker.loop (linker : Linker) (csid : UInt16) (node : NodeAddress) :
    List UInt16 → CsidArrays → Option CsidArrays
  | [], t => some t
  | peerCsid :: rest, t =>
    (linker.round csid ((t ⟨peerCsid, node⟩).getD [])).bind fun (linked, more) =>
      let t := t.add ⟨peerCsid, node⟩ linked
      if more then linker.loop csid node rest t else some t

def Linker.link (linker : Linker) (peer localFqcsid : FqCsid) (iface : UInt8)
    (tables : PeerHash → CsidArrays) : Option (PeerHash → CsidArrays) :=
  match localFqcsid.localCsid.getLast?, peerHash iface with
  | some csid, some hash =>
    (linker.loop csid (linker.node peer.nodeAddr) peer.localCsid (tables hash)).map (Function.update tables hash)
  | _, _ => if peer.localCsid = [] then some tables else none

def linkGtpcPeerCsids := Linker.link .gtpcPeer
def linkPeerCsidWithLocalCsid := Linker.link .peerWithLocal
def updatePeerCsidLink (peer localFqcsid : FqCsid) := Linker.link .update peer localFqcsid sxPortId

def withCsid (csid : UInt16) (linked : List UInt16) : List UInt16 :=
  if csid ∈ linked then linked else linked ++ [csid]

/-- The CSID is inserted into the lists of the peer's CSIDs only. -/
structure Inserted (csid : UInt16) (node : NodeAddress) (peerCsids : List UInt16) (t t' : CsidArrays) :
    Prop where
  named : ∀ c ∈ peerCsids, t' ⟨c, node⟩ = some (withCsid csid ((t ⟨c, node⟩).getD []))
  others : ∀ key, (∀ c ∈ peerCsids, key ≠ ⟨c, node⟩) → t' key = t key

/-- When a linker inserts, by the lists that it meets. -/
def Linker.Inserts (csid : UInt16) (peerCsids : List UInt16) (linked : UInt16 → List UInt16) : Linker → Prop
  | .gtpcPeer => ∀ c ∈ peerCsids, csid ∈ linked c ∨ c ∈ newUntil (csid ∈ linked ·) peerCsids
  | .peerWithLocal => True
  | .update => ∀ c ∈ peerCsids, linked c = [] ∨ (linked c).head? = some csid ∨
      ((linked c).length = 1 ∧ peerCsids.count c = 1)

variable {csid c : UInt16} {node : NodeAddress} {peerCsids linked linked' : List UInt16} {t t' : CsidArrays}

theorem mem_withCsid : csid ∈ withCsid csid linked := by
  unfold withCsid
  split
  · assumption
  · simp

theorem withCsid_withCsid : withCsid csid (withCsid csid linked) = withCsid csid linked :=
  if_pos mem_withCsid

def CsidArrays.with (t : CsidArrays) (csid : UInt16) (node : NodeAddress) (c : UInt16) : CsidArrays :=
  t.add ⟨c, node⟩ (withCsid csid ((t ⟨c, node⟩).getD []))

theorem with_getD (other : UInt16) :
    ((t.with csid node c) ⟨other, node⟩).getD [] =
      if other = c then withCsid csid ((t ⟨c, node⟩).getD []) else (t ⟨other, node⟩).getD [] := by
  split
  · next same => rw [same, CsidArrays.with, add_self, getD_some]
  · next ne => rw [CsidArrays.with, add_of_ne (by simpa using ne)]

theorem inserted_cons :
    Inserted csid node (c :: peerCsids) t t' ↔ Inserted csid node peerCsids (t.with csid node c) t' := by
  have again (other : UInt16) : withCsid csid (((t.with csid node c) ⟨other, node⟩).getD []) =
      withCsid csid ((t ⟨other, node⟩).getD []) := by
    rw [with_getD]
    split
    · next same => rw [same, withCsid_withCsid]
    · rfl
  constructor
  · intro inserted
    refine ⟨fun other mem => again other ▸ inserted.named other (mem_cons_of_mem _ mem),
      fun key notNamed => ?_⟩
    by_cases here : key = ⟨c, node⟩
    · rw [here, inserted.named c mem_cons_self, CsidArrays.with, add_self]
    · rw [CsidArrays.with, add_of_ne here]
      exact inserted.others key (forall_mem_cons.mpr ⟨here, notNamed⟩)
  · intro inserted
    refine ⟨fun other mem => ?_, fun key notNamed => ?_⟩
    · by_cases later : other ∈ peerCsids
      · exact again other ▸ inserted.named other later
      · obtain rfl := (mem_cons.mp mem).resolve_right later
        have notLater : ∀ d ∈ peerCsids, CsidKey.mk other node ≠ ⟨d, node⟩ := fun d inList same =>
          later ((CsidKey.mk.inj same).1 ▸ inList)
        rw [inserted.others _ notLater, CsidArrays.with, add_self]
    · obtain ⟨here, notLater⟩ := forall_mem_cons.mp notNamed
      rw [inserted.others key notLater, CsidArrays.with, add_of_ne here]

theorem loop_cons_iff {linker : Linker}
    (round : linker.round csid ((t ⟨c, node⟩).getD []) =
      some (withCsid csid ((t ⟨c, node⟩).getD []), true)) :
    (∃ t', linker.loop csid node (c :: peerCsids) t = some t' ∧ Inserted csid node (c :: peerCsids) t t') ↔
      ∃ t', linker.loop csid node peerCsids (t.with csid node c) = some t' ∧
        Inserted csid node peerCsids (t.with csid node c) t' := by
  simp only [inserted_cons, Linker.loop, round, bind_some, if_true]
  rfl

theorem loop_nil (linker : Linker) :
    ∃ t', linker.loop csid node [] t = some t' ∧ Inserted csid node [] t t' :=
  ⟨t, rfl, forall_mem_nil _, fun _ _ => rfl⟩

theorem push_of_room (room : csid ∉ linked → linked.length < maxCsid) (new : csid ∉ linked) :
    push csid linked = some (withCsid csid linked) := by
  rw [push, if_pos (room new), withCsid, if_neg new]

/-- There is room for the CSID where it is missing. -/
def Room (csid : UInt16) (node : NodeAddress) (peerCsids : List UInt16) (t : CsidArrays) : Prop :=
  ∀ c ∈ peerCsids, csid ∉ (t ⟨c, node⟩).getD [] → ((t ⟨c, node⟩).getD []).length < maxCsid

theorem Room.tail (room : Room csid node (c :: peerCsids) t) :
    Room csid node peerCsids (t.with csid node c) := by
  intro other mem missing
  rw [with_getD] at missing ⊢
  split at missing
  · exact absurd mem_withCsid missing
  · next ne =>
    rw [if_neg ne]
    exact room other (mem_cons_of_mem _ mem) missing

theorem peerWithLocal_inserts (room : Room csid node peerCsids t) :
    ∃ t', Linker.peerWithLocal.loop csid node peerCsids t = some t' ∧ Inserted csid node peerCsids t t' := by
  induction peerCsids generalizing t with
  | nil => exact loop_nil _
  | cons c rest ih =>
    refine (loop_cons_iff ?_).mpr (ih room.tail)
    by_cases known : csid ∈ (t ⟨c, node⟩).getD []
    · rw [Linker.round, if_pos known, withCsid, if_pos known]
    · rw [Linker.round, if_neg known, push_of_room (room c mem_cons_self) known, map_some]

theorem getD_eq_withCsid_iff :
    t ⟨c, node⟩ = some (withCsid csid ((t ⟨c, node⟩).getD [])) ↔ csid ∈ (t ⟨c, node⟩).getD [] := by
  cases held : t ⟨c, node⟩ with
  | none => simp
  | some linked =>
    rw [getD_some, some_inj]
    exact ⟨fun same => same ▸ mem_withCsid, fun known => (if_pos known).symm⟩

theorem gtpcPeer_known_iff (known : csid ∈ (t ⟨c, node⟩).getD []) :
    (∃ t', Linker.gtpcPeer.loop csid node (c :: peerCsids) t = some t' ∧
        Inserted csid node (c :: peerCsids) t t') ↔
      ∀ other ∈ c :: peerCsids, csid ∈ (t ⟨other, node⟩).getD [] := by
  have held := getD_eq_withCsid_iff.mpr known
  rw [withCsid, if_pos known] at held
  have same : Table.add t ⟨c, node⟩ ((t ⟨c, node⟩).getD []) = t := add_eq_self held
  have loop : Linker.gtpcPeer.loop csid node (c :: peerCsids) t = some t := by
    rw [Linker.loop, Linker.round, if_pos known, bind_some]
    exact congrArg some same
  simp only [loop, some_inj, exists_eq_left', ← getD_eq_withCsid_iff]
  exact ⟨Inserted.named, fun named => ⟨named, fun _ _ => rfl⟩⟩

theorem gtpcPeer_inserts_iff (room : Room csid node peerCsids t) :
    (∃ t', Linker.gtpcPeer.loop csid node peerCsids t = some t' ∧ Inserted csid node peerCsids t t') ↔
      Linker.gtpcPeer.Inserts csid peerCsids fun c => (t ⟨c, node⟩).getD [] := by
  induction peerCsids generalizing t with
  | nil => exact iff_of_true (loop_nil _) (forall_mem_nil _)
  | cons c rest ih =>
    simp only [Linker.Inserts, newUntil]
    by_cases known : csid ∈ (t ⟨c, node⟩).getD []
    · simp only [gtpcPeer_known_iff known, known, decide_true, if_true, not_mem_nil, or_false]
    · have round : Linker.gtpcPeer.round csid ((t ⟨c, node⟩).getD []) =
          some (withCsid csid ((t ⟨c, node⟩).getD []), true) := by
        rw [Linker.round, if_neg known, push_of_room (room c mem_cons_self) known, map_some]
      have linked (other : UInt16) : csid ∈ ((t.with csid node c) ⟨other, node⟩).getD [] ↔
          csid ∈ (t ⟨other, node⟩).getD [] ∨ other = c := by
        rw [with_getD]
        split
        · next same => exact iff_of_true mem_withCsid (.inr same)
        · next ne => rw [or_iff_left ne]
      rw [loop_cons_iff round, ih room.tail]
      simp only [Linker.Inserts, linked, Bool.decide_or, known, decide_false, Bool.false_eq_true, if_false,
        mem_cons, forall_eq_or_imp, true_or, or_true, true_and, or_assoc]
      rfl

theorem addWhile_extends {fuel itr : Nat} (done : addWhile csid fuel itr linked = some linked') :
    linked <+: linked' := by
  induction fuel generalizing itr linked with
  | zero => cases done
  | succ fuel ih =>
    rw [addWhile] at done
    split at done
    · cases done
      exact prefix_rfl
    · split at done
      · obtain ⟨more, pushed, rest⟩ := bind_eq_some_iff.mp done
        obtain ⟨-, same⟩ := ite_none_right_eq_some.mp pushed
        cases same
        exact (prefix_append _ _).trans (ih rest)
      · cases done
        exact prefix_rfl

/-- The lists that the loop adds one CSID to at most. -/
def Fine (csid : UInt16) (linked : List UInt16) : Prop :=
  linked = [] ∨ linked.head? = some csid ∨ linked.length = 1

theorem update_round (fine : Fine csid linked) :
    Linker.update.round csid linked = some (withCsid csid linked, true) := by
  match linked, fine with
  | [], _ => rfl
  | first :: rest, fine =>
    by_cases same : first = csid
    · simp [Linker.round, addWhile, withCsid, same]
    · have last : rest = [] := by simpa [Fine, same] using fine
      simp [Linker.round, addWhile, push, withCsid, maxCsid, same, Ne.symm same, last]

theorem update_round_eq {more : Bool} (done : Linker.update.round csid linked = some (linked', more)) :
    more = true ∧ (if linked = [] then push csid linked else addWhile csid (maxCsid + 1) 0 linked) =
      some linked' := by
  obtain ⟨_, stored, same⟩ := map_eq_some_iff.mp done
  cases same
  exact ⟨rfl, stored⟩

theorem update_round_long {more : Bool} (long : ¬ Fine csid linked)
    (done : Linker.update.round csid linked = some (linked', more)) :
    ¬ linked' <+: withCsid csid linked := by
  have done := (update_round_eq done).2
  match linked, long with
  | [], long => exact absurd (.inl rfl) long
  | [_], long => exact absurd (.inr (.inr rfl)) long
  | first :: second :: rest, long =>
    have other : first ≠ csid := fun same => long (.inr (.inl (by rw [head?_cons, same])))
    intro inside
    rw [if_neg (cons_ne_nil _ _), addWhile] at done
    simp only [getElem?_cons_zero, if_pos other] at done
    obtain ⟨once, pushed, done⟩ := bind_eq_some_iff.mp done
    obtain ⟨-, same⟩ := ite_none_right_eq_some.mp pushed
    cases same
    rw [show maxCsid = 14 + 1 from rfl, addWhile] at done
    simp only [cons_append, getElem?_cons_succ, getElem?_cons_zero] at done
    split at done
    · obtain ⟨twice, pushed, done⟩ := bind_eq_some_iff.mp done
      obtain ⟨-, same⟩ := ite_none_right_eq_some.mp pushed
      cases same
      have longer := ((addWhile_extends done).trans inside).length_le
      unfold withCsid at longer
      split at longer <;> simp at longer
    · next second_eq =>
      cases done
      have longer := inside.length_le
      simp [withCsid, not_not.mp second_eq] at longer

theorem update_grows {key : CsidKey} (held : t key = some linked)
    (done : Linker.update.loop csid node peerCsids t = some t') :
    ∃ linked', t' key = some linked' ∧ linked <+: linked' := by
  induction peerCsids generalizing t linked with
  | nil =>
    cases done
    exact ⟨linked, held, prefix_rfl⟩
  | cons c rest ih =>
    obtain ⟨⟨after, more⟩, round, done⟩ := bind_eq_some_iff.mp done
    obtain ⟨rfl, stored⟩ := update_round_eq round
    by_cases here : key = ⟨c, node⟩
    · subst here
      obtain ⟨last, is, grown⟩ := ih (add_self t _ after) done
      refine ⟨last, is, IsPrefix.trans ?_ grown⟩
      rw [held, getD_some] at stored
      split at stored
      · next empty => exact empty ▸ nil_prefix
      · exact addWhile_extends stored
    · exact ih ((add_of_ne here).trans held) done

theorem fine_withCsid_iff {p : Prop} (fine : Fine csid linked) :
    (withCsid csid linked = [] ∨ (withCsid csid linked).head? = some csid ∨
        ((withCsid csid linked).length = 1 ∧ p)) ↔ linked = [] ∨ linked.head? = some csid := by
  match linked, fine with
  | [], _ => simp [withCsid]
  | first :: rest, fine =>
    by_cases same : first = csid
    · simp [withCsid, same]
    · have last : rest = [] := by simpa [Fine, same] using fine
      simp [withCsid, same, Ne.symm same, last]

theorem update_inserts_iff :
    (∃ t', Linker.update.loop csid node peerCsids t = some t' ∧ Inserted csid node peerCsids t t') ↔
      Linker.update.Inserts csid peerCsids fun c => (t ⟨c, node⟩).getD [] := by
  induction peerCsids generalizing t with
  | nil => exact iff_of_true (loop_nil _) (forall_mem_nil _)
  | cons c rest ih =>
    by_cases fine : Fine csid ((t ⟨c, node⟩).getD [])
    · rw [loop_cons_iff (update_round fine), ih]
      simp only [Linker.Inserts, with_getD]
      constructor
      · intro later
        have here (mem : c ∈ rest) := (fine_withCsid_iff fine).mp (by simpa using later c mem)
        refine forall_mem_cons.mpr ⟨?_, fun other mem => ?_⟩
        · by_cases mem : c ∈ rest
          · exact (here mem).imp_right .inl
          · exact fine.imp_right (.imp_right fun one => ⟨one, by simp [count_eq_zero_of_not_mem mem]⟩)
        · by_cases same : other = c
          · subst same
            exact (here mem).imp_right .inl
          · have := later other mem
            rwa [if_neg same, ← count_cons_of_ne (Ne.symm same)] at this
      · intro all other mem
        have this := all other (mem_cons_of_mem _ mem)
        by_cases same : other = c
        · subst same
          rw [if_pos rfl]
          refine (fine_withCsid_iff fine).mpr (this.imp_right fun h => h.resolve_right fun one => ?_)
          have twice := count_pos_iff.mpr mem
          rw [count_cons_self] at one
          omega
        · rwa [if_neg same, ← count_cons_of_ne (Ne.symm same)]
    · refine iff_of_false ?_ fun all => fine ?_
      · rintro ⟨t', done, inserted⟩
        obtain ⟨⟨after, more⟩, round, done⟩ := bind_eq_some_iff.mp done
        obtain ⟨rfl, -⟩ := update_round_eq round
        obtain ⟨last, is, grown⟩ := update_grows (add_self t _ after) done
        rw [inserted.named c mem_cons_self, some_inj] at is
        exact update_round_long fine round (is ▸ grown)
      · exact (all c mem_cons_self).imp_right (.imp_right And.left)

/-- The linkers insert the last local CSID exactly if: for `link_gtpc_peer_csids` every peer CSID
has it or comes before the first that has it or is repeated; for `update_peer_csid_link` every list
is empty, begins with it, or has one CSID and is met once. -/
theorem link_inserts_iff (linker : Linker) (peer localFqcsid : FqCsid) (iface : UInt8) (hash : PeerHash)
    (tables : PeerHash → CsidArrays) (isHash : peerHash iface = some hash)
    (last : localFqcsid.localCsid.getLast? = some csid)
    (room : ∀ c ∈ peer.localCsid,
      ((tables hash ⟨c, linker.node peer.nodeAddr⟩).getD []).length < maxCsid) :
    (∃ tables', linker.link peer localFqcsid iface tables = some tables' ∧
        Inserted csid (linker.node peer.nodeAddr) peer.localCsid (tables hash) (tables' hash) ∧
        ∀ other ≠ hash, tables' other = tables other) ↔
      linker.Inserts csid peer.localCsid fun c => (tables hash ⟨c, linker.node peer.nodeAddr⟩).getD [] := by
  have stored : (∃ tables', linker.link peer localFqcsid iface tables = some tables' ∧
        Inserted csid (linker.node peer.nodeAddr) peer.localCsid (tables hash) (tables' hash) ∧
        ∀ other ≠ hash, tables' other = tables other) ↔
      ∃ t', linker.loop csid (linker.node peer.nodeAddr) peer.localCsid (tables hash) = some t' ∧
        Inserted csid (linker.node peer.nodeAddr) peer.localCsid (tables hash) t' := by
    simp only [Linker.link, last, isHash, map_eq_some_iff]
    constructor
    · rintro ⟨-, ⟨t', done, rfl⟩, inserted, -⟩
      exact ⟨t', done, by simpa using inserted⟩
    · rintro ⟨t', done, inserted⟩
      exact ⟨_, ⟨t', done, rfl⟩, by simpa using inserted,
        fun other different => Function.update_of_ne different _ _⟩
  rw [stored]
  have room' : Room csid (linker.node peer.nodeAddr) peer.localCsid (tables hash) :=
    fun c member _ => room c member
  cases linker with
  | gtpcPeer => exact gtpcPeer_inserts_iff room'
  | peerWithLocal => exact iff_of_true (peerWithLocal_inserts room') trivial
  | update => exact update_inserts_iff

/-- The peer's CSID 1 is linked with the CSIDs `one`, its CSID 2 with 5. -/
def linkedPeer (one : List UInt16) (_ : PeerHash) : CsidArrays := fun key =>
  if key.localCsid = 1 then some one else if key.localCsid = 2 then some [5] else none

theorem link_inserts_two :
    ∃ tables', Linker.update.link ⟨[1, 2], .v4 1⟩ ⟨[6], .v4 2⟩ sxPortId (linkedPeer [6, 5]) = some tables' ∧
      Inserted 6 (.v4 1) [1, 2] (linkedPeer [6, 5] .sgwcsid) (tables' .sgwcsid) ∧
      ∀ other ≠ .sgwcsid, tables' other = linkedPeer [6, 5] other :=
  (link_inserts_iff .update ⟨[1, 2], .v4 1⟩ ⟨[6], .v4 2⟩ sxPortId .sgwcsid (linkedPeer [6, 5]) rfl rfl
    (by simp [linkedPeer, maxCsid])).mpr (by simp [Linker.Inserts, linkedPeer])

/-- CSID 2 is not reached behind a linked CSID, and a list gets the CSID twice. -/
theorem links_not_inserted :
    (linkGtpcPeerCsids ⟨[1, 2], .v4 1⟩ ⟨[6], .v4 2⟩ s11SgwPortId (linkedPeer [6])).map
        (fun tables => tables .mmecsid ⟨2, .v4 1⟩) = some (some [5]) ∧
      (updatePeerCsidLink ⟨[1], .v4 1⟩ ⟨[6], .v4 2⟩ (linkedPeer [5, 7])).map
        (fun tables => tables .sgwcsid ⟨1, .v4 1⟩) = some (some [5, 7, 6, 6]) := by
  decide

end Epc.CsidLink
