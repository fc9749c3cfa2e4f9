import OpenVC.Ebsi.Proofs.TrustProofs

/-!
# When the trust chain closes

The walk takes the first accreditation of a record that is eligible at its position and covers what
is needed there, and does not come back to another. So it returns a chain exactly when the path of
those accreditations leads to an anchor, whatever else the records list.
-/

namespace OpenVC.Ebsi

open Python

/-! ## The first accreditation that will do -/

/-- An accreditation that will do at its position of a chain. -/
def Suits (needed : Finset Str) (leaf : Bool) (acc : Accreditation) : Prop :=
  accreditationIneligibility acc leaf = none ∧ covers acc needed leaf = true

/-- The pick is the first of the record's accreditations that will do. -/
theorem pickAccreditation_eq_first {record : IssuerRecord} {needed : Finset Str} {leaf : Bool}
    {acc : Accreditation} : pickAccreditation record needed leaf = some acc ↔
      record.hasAttributes = true ∧ Suits needed leaf acc ∧
        ∃ before after, record.accreditations = before ++ acc :: after ∧
          ∀ other ∈ before, ¬ Suits needed leaf other := by
  have hsuits : ∀ acc, ((accreditationIneligibility acc leaf).isNone && covers acc needed leaf) =
      true ↔ Suits needed leaf acc := by
    intro acc
    rw [Bool.and_eq_true, Option.isNone_iff_eq_none]
    rfl
  rw [pickAccreditation]
  split
  · rename_i hattributes
    rw [List.find?_eq_some_iff_append]
    simp only [hsuits, hattributes, true_and, Bool.not_eq_true', ← Bool.not_eq_true]
  · rename_i hnone
    constructor
    · intro h
      cases h
    · intro h
      exact absurd h.1 hnone

/-- An accreditation that is eligible at some position. -/
def eligible (acc : Accreditation) : Bool :=
  (accreditationIneligibility acc true).isNone || (accreditationIneligibility acc false).isNone

/-- A record that lists the eligible accreditations of another first and in its order, with any
others among them and any more after. -/
def Lists (record record' : IssuerRecord) : Prop :=
  record'.hasAttributes = record.hasAttributes ∧
    record.accreditations.filter eligible <+: record'.accreditations.filter eligible

/-- The pick stays when accreditations are listed that are not eligible, or after it. -/
theorem pickAccreditation_of_lists {record record' : IssuerRecord} {needed : Finset Str}
    {leaf : Bool} {acc : Accreditation} (h : Lists record record')
    (hpick : pickAccreditation record needed leaf = some acc) :
    pickAccreditation record' needed leaf = some acc := by
  obtain ⟨hattributes, hprefix⟩ := h
  rw [pickAccreditation] at hpick ⊢
  rw [hattributes]
  split at hpick
  · rename_i htrue
    rw [if_pos htrue]
    -- the ineligible ones are passed over in any case
    have hfilter : ∀ accs : List Accreditation, (accs.filter eligible).find? (fun acc =>
        (accreditationIneligibility acc leaf).isNone && covers acc needed leaf) =
        accs.find? fun acc =>
          (accreditationIneligibility acc leaf).isNone && covers acc needed leaf := by
      intro accs
      rw [List.find?_filter]
      refine congrArg (fun p => accs.find? p) (funext fun acc => ?_)
      cases leaf <;> unfold eligible <;>
        cases (accreditationIneligibility acc true).isNone <;>
        cases (accreditationIneligibility acc false).isNone <;> simp
    rw [← hfilter] at hpick ⊢
    obtain ⟨more, hmore⟩ := hprefix
    rw [← hmore, List.find?_append, hpick]
    rfl
  · cases hpick

namespace Verifier

/-! ## Paths of accreditations -/

/-- The scope that is fixed at the leaf of a path. -/
def leafScope (credentialTypes : List Str) : List TrustHop → Finset Str
  | [] => credentialTypes.toFinset
  | hop :: _ => hop.accreditation.credentialTypes.toFinset ∩ credentialTypes.toFinset

/-- What the accreditation of hop `n` has to cover. -/
def neededAt (credentialTypes : List Str) (scope : Finset Str) (n : Nat) : Finset Str :=
  if n = 0 then credentialTypes.toFinset else scope

/-- Hop `n` of a path, whose subject has the given record: the record lists its accreditation, which
is eligible, covers what is needed, verifies for its subject and is not revoked. -/
structure Usable (V : Verifier) (credentialTypes : List Str) (scope : Finset Str) (n : Nat)
    (hop : TrustHop) (record : IssuerRecord) : Prop where
  resolved : V.currentRecord n hop.subject = .ok record
  hasAttributes : record.hasAttributes = true
  listed : hop.accreditation ∈ record.accreditations
  suits : Suits (neededAt credentialTypes scope n) (n == 0) hop.accreditation
  accreditor : hop.accreditation.tao = some hop.accreditor ∧ hop.accreditor ≠ []
  verified : ∃ vc, V.verifyAccreditation n hop.accreditation hop.subject hop.accreditor = .ok vc ∧
    V.checkAccreditationStatus n hop.subject vc = .ok ()

/-- A sequence of usable accreditations from the subject's record upwards to an anchor, of at most
`maxDepth` hops through distinct DIDs. -/
structure Leads (V : Verifier) (subjectDid : Str) (credentialTypes : List Str)
    (anchors : Finset Str) (maxDepth : Nat) (hops : List TrustHop) (anchor : Str) : Prop where
  nonempty : hops ≠ []
  linked : Path.Linked TrustHop.subject TrustHop.accreditor subjectDid hops anchor
  distinct : (Path.vertices TrustHop.accreditor subjectDid hops).Nodup
  length : hops.length ≤ maxDepth
  anchored : anchor ∈ anchors
  usable : ∀ n hop, hops[n]? = some hop → ∃ record,
    V.Usable credentialTypes (leafScope credentialTypes hops) n hop record

/-- No accreditation that is listed before that of hop `n` would do. -/
def First (V : Verifier) (credentialTypes : List Str) (scope : Finset Str) (n : Nat)
    (hop : TrustHop) : Prop :=
  ∀ record, V.currentRecord n hop.subject = .ok record →
    ∃ before after, record.accreditations = before ++ hop.accreditation :: after ∧
      ∀ other ∈ before, ¬ Suits (neededAt credentialTypes scope n) (n == 0) other

variable {V : Verifier} {credentialTypes : List Str} {scope : Finset Str} {anchors : Finset Str}
  {subjectDid : Str} {maxDepth left : Nat} {st : Walk} {hop : TrustHop} {chain : TrustChain}

/-- The variables of the loop agree with a path whose scope is `scope`. -/
structure OnPath (scope : Finset Str) (st : Walk) : Prop where
  leaf : st.scope = none ↔ st.hops = []
  fixed : ∀ s, st.scope = some s → s = scope

theorem OnPath.needed (h : OnPath scope st) :
    st.scope.getD credentialTypes.toFinset = neededAt credentialTypes scope st.hops.length ∧
      st.scope.isNone = (st.hops.length == 0) := by
  cases hs : st.scope with
  | none =>
    rw [h.leaf.mp hs]
    exact ⟨rfl, rfl⟩
  | some s =>
    have hne : st.hops.length ≠ 0 := fun hzero =>
      absurd (h.leaf.mpr (List.length_eq_zero_iff.mp hzero)) (by rw [hs]; nofun)
    rw [neededAt, if_neg hne, h.fixed s hs]
    exact ⟨rfl, by simp [hne]⟩

/-- One iteration takes the first accreditation of the record that will do, and goes on if it is
usable. -/
theorem climb_eq_ok_iff (hpath : OnPath scope st) {s : Finset Str} :
    V.climb credentialTypes st = .ok (hop, s) ↔
      hop.subject = st.current ∧
        (∃ record, V.Usable credentialTypes scope st.hops.length hop record) ∧
        V.First credentialTypes scope st.hops.length hop ∧
        s = st.scope.getD
          (hop.accreditation.credentialTypes.toFinset ∩ credentialTypes.toFinset) := by
  have hpair : st.scope.getD credentialTypes.toFinset =
      neededAt credentialTypes scope st.hops.length ∧ st.scope.isNone = (st.hops.length == 0) :=
    hpath.needed
  obtain ⟨hneeded, hleaf⟩ := hpair
  simp only [climb, bind_eq_ok, orRaise_eq_ok, pure_eq_ok, Prod.mk.injEq,
    Option.filter_eq_some_iff, Bool.not_eq_true', hneeded, hleaf]
  constructor
  · rintro ⟨record, hrecord, acc, hpick, accreditor, ⟨htao, hne⟩, vc, hvc, ⟨⟩, hstatus, rfl, rfl⟩
    obtain ⟨hattributes, hsuits, before, after, hlist, hfirst⟩ :=
      pickAccreditation_eq_first.mp hpick
    refine ⟨rfl, ⟨record, ?_⟩, ?_, rfl⟩
    · exact {
        resolved := hrecord
        hasAttributes := hattributes
        listed := by rw [hlist]; exact List.mem_append_right _ List.mem_cons_self
        suits := hsuits
        accreditor := ⟨htao, fun hempty => by
          rw [List.isEmpty_eq_false_iff] at hne
          exact hne hempty⟩
        verified := ⟨vc, hvc, hstatus⟩ }
    · intro record' hrecord'
      rw [hrecord] at hrecord'
      cases hrecord'
      exact ⟨before, after, hlist, hfirst⟩
  · rintro ⟨hsubject, ⟨record, husable⟩, hfirst, rfl⟩
    obtain ⟨vc, hvc, hstatus⟩ := husable.verified
    have hrecord := husable.resolved
    obtain ⟨before, after, hlist, hbefore⟩ := hfirst record hrecord
    rw [hsubject] at hrecord hvc hstatus
    refine ⟨record, hrecord, hop.accreditation,
      pickAccreditation_eq_first.mpr ⟨husable.hasAttributes, husable.suits, before, after, hlist,
        hbefore⟩, hop.accreditor, ⟨husable.accreditor.1, ?_⟩, vc, hvc, (), hstatus, ?_, rfl⟩
    · rw [List.isEmpty_eq_false_iff]
      exact husable.accreditor.2
    · rw [← hsubject]

/-! ## Along a path of first picks -/

theorem leafScope_append {hops more : List TrustHop} (h : hops ≠ []) :
    leafScope credentialTypes (hops ++ more) = leafScope credentialTypes hops := by
  obtain ⟨first, rest, rfl⟩ := List.exists_cons_of_ne_nil h
  rfl

/-- What an iteration leaves as the scope is that of the path with the new hop. -/
theorem OnPath.scope_snoc (h : OnPath (leafScope credentialTypes st.hops) st) :
    st.scope.getD (hop.accreditation.credentialTypes.toFinset ∩ credentialTypes.toFinset) =
      leafScope credentialTypes (st.hops ++ [hop]) := by
  cases hs : st.scope with
  | none =>
    rw [h.leaf.mp hs]
    rfl
  | some s =>
    have hne : st.hops ≠ [] := fun hnil => absurd (h.leaf.mpr hnil) (by rw [hs]; nofun)
    rw [leafScope_append hne, Option.getD_some, h.fixed s hs]

/-- What an iteration of the loop does: it ends at an anchor, and goes on from a DID that is new. -/
theorem walk_succ_eq_ok : V.walk subjectDid credentialTypes anchors maxDepth (left + 1) st =
    .ok chain ↔ ∃ hop s, V.climb credentialTypes st = .ok (hop, s) ∧
      (hop.accreditor ∈ anchors ∧ chain = ⟨subjectDid, hop.accreditor, st.hops ++ [hop], s⟩ ∨
        hop.accreditor ∉ anchors ∧ hop.accreditor ∉ st.seen ∧
          V.walk subjectDid credentialTypes anchors maxDepth left
            ⟨hop.accreditor, hop.accreditor :: st.seen, some s, st.hops ++ [hop]⟩ = .ok chain) := by
  rw [walk, bind_eq_ok, Prod.exists]
  refine exists_congr fun hop => exists_congr fun s => and_congr_right fun _ => ?_
  by_cases hanchor : hop.accreditor ∈ anchors
  · simp only [hanchor, if_true, pure_eq_ok, true_and, not_true, false_and, or_false]
    exact eq_comm
  · simp only [hanchor, if_false, bind_eq_ok, raiseIf_eq_ok, List.contains_eq_mem,
      decide_eq_false_iff_not, exists_const, false_and, not_false_eq_true, true_and, false_or]

/-- The walk from any of its states follows the rest of the path, to the first anchor on it. -/
theorem exists_walk_eq_ok {hops rest : List TrustHop} {anchor : Str} (hne : rest ≠ [])
    (hhops : hops = st.hops ++ rest) (hpath : OnPath (leafScope credentialTypes hops) st)
    (hlinked : Path.Linked TrustHop.subject TrustHop.accreditor st.current rest anchor)
    (hnodup : (Path.vertices TrustHop.accreditor subjectDid hops).Nodup)
    (hseen : ∀ did, did ∈ st.seen → did ∈ Path.vertices TrustHop.accreditor subjectDid st.hops)
    (hleft : rest.length ≤ left) (hanchor : anchor ∈ anchors)
    (hall : ∀ n hop, hops[n]? = some hop →
      (∃ record, V.Usable credentialTypes (leafScope credentialTypes hops) n hop record) ∧
        V.First credentialTypes (leafScope credentialTypes hops) n hop) :
    ∃ chain, V.walk subjectDid credentialTypes anchors maxDepth left st = .ok chain := by
  induction rest generalizing st left with
  | nil => exact absurd rfl hne
  | cons hop rest ih =>
    obtain ⟨left, rfl⟩ : ∃ k, left = k + 1 := by
      simp only [List.length_cons] at hleft
      exact ⟨left - 1, by omega⟩
    obtain ⟨hsubject, hlinked⟩ := Path.linked_cons.mp hlinked
    have hat : hops[st.hops.length]? = some hop := by
      rw [hhops, List.getElem?_append_right (Nat.le_refl _), Nat.sub_self]
      rfl
    obtain ⟨husable, hfirst⟩ := hall _ hop hat
    have hclimb := (climb_eq_ok_iff hpath).mpr ⟨hsubject, husable, hfirst, rfl⟩
    simp only [walk_succ_eq_ok]
    by_cases haccreditor : hop.accreditor ∈ anchors
    · exact ⟨_, hop, _, hclimb, .inl ⟨haccreditor, rfl⟩⟩
    have hrest : rest ≠ [] := by
      rintro rfl
      rw [Path.linked_nil] at hlinked
      exact haccreditor (hlinked ▸ hanchor)
    have hnew : hop.accreditor ∉ Path.vertices TrustHop.accreditor subjectDid st.hops :=
      Path.notMem_vertices_of_nodup (hhops ▸ hnodup)
    have hunseen : hop.accreditor ∉ st.seen := fun hmem => hnew (hseen _ hmem)
    suffices hwalk : ∃ chain, V.walk subjectDid credentialTypes anchors maxDepth left _ =
        .ok chain from
      hwalk.imp fun chain h => ⟨hop, _, hclimb, .inr ⟨haccreditor, hunseen, h⟩⟩
    refine ih hrest ?_ ?_ hlinked ?_ ?_
    · rw [hhops, List.append_assoc]
      rfl
    · refine ⟨by simp, fun s hs => ?_⟩
      cases hs
      cases hscope : st.scope with
      | none =>
        rw [hhops, hpath.leaf.mp hscope]
        rfl
      | some s => exact hpath.fixed s hscope
    · intro did hdid
      rw [Path.vertices_snoc, List.mem_append, List.mem_singleton]
      rcases List.mem_cons.mp hdid with rfl | hdid
      · exact .inr rfl
      · exact .inl (hseen did hdid)
    · simp only [List.length_cons] at hleft
      omega

/-- What the walk has gone along: a path of usable first picks. -/
structure Climbed (V : Verifier) (subjectDid : Str) (credentialTypes : List Str) (st : Walk) :
    Prop where
  onPath : OnPath (leafScope credentialTypes st.hops) st
  linked : Path.Linked TrustHop.subject TrustHop.accreditor subjectDid st.hops st.current
  nodup : (Path.vertices TrustHop.accreditor subjectDid st.hops).Nodup
  seen : ∀ did, did ∈ Path.vertices TrustHop.accreditor subjectDid st.hops → did ∈ st.seen
  picks : ∀ n hop, st.hops[n]? = some hop →
    (∃ record, V.Usable credentialTypes (leafScope credentialTypes st.hops) n hop record) ∧
      V.First credentialTypes (leafScope credentialTypes st.hops) n hop

/-- What is needed at a hop does not depend on the hops after it. -/
theorem neededAt_leafScope_append {hops more : List TrustHop} {n : Nat} (h : n < hops.length) :
    neededAt credentialTypes (leafScope credentialTypes (hops ++ more)) n =
      neededAt credentialTypes (leafScope credentialTypes hops) n := by
  rw [leafScope_append]
  rintro rfl
  exact absurd h (Nat.not_lt_zero n)

/-- A hop is as usable under another scope that asks the same of it. -/
theorem Usable.of_needed {s s' : Finset Str} {n : Nat} {record : IssuerRecord}
    (h : V.Usable credentialTypes s n hop record)
    (heq : neededAt credentialTypes s' n = neededAt credentialTypes s n) :
    V.Usable credentialTypes s' n hop record where
  resolved := h.resolved
  hasAttributes := h.hasAttributes
  listed := h.listed
  suits := heq ▸ h.suits
  accreditor := h.accreditor
  verified := h.verified

/-- An iteration goes one hop further along the path. -/
theorem Climbed.picks_snoc (h : V.Climbed subjectDid credentialTypes st) {s : Finset Str}
    (hclimb : V.climb credentialTypes st = .ok (hop, s)) :
    hop.subject = st.current ∧ s = leafScope credentialTypes (st.hops ++ [hop]) ∧
      ∀ n hop', (st.hops ++ [hop])[n]? = some hop' →
        (∃ record, V.Usable credentialTypes (leafScope credentialTypes (st.hops ++ [hop])) n hop'
          record) ∧
        V.First credentialTypes (leafScope credentialTypes (st.hops ++ [hop])) n hop' := by
  obtain ⟨hsubject, ⟨record, husable⟩, hfirst, rfl⟩ := (climb_eq_ok_iff h.onPath).mp hclimb
  refine ⟨hsubject, h.onPath.scope_snoc, Path.forall_getElem?_snoc ?_ ?_⟩
  · intro n hop' hn
    obtain ⟨⟨record', husable'⟩, hfirst'⟩ := h.picks n hop' hn
    have heq : neededAt credentialTypes (leafScope credentialTypes (st.hops ++ [hop])) n =
        neededAt credentialTypes (leafScope credentialTypes st.hops) n :=
      neededAt_leafScope_append (List.getElem?_eq_some_iff.mp hn).1
    refine ⟨⟨record', husable'.of_needed heq⟩, ?_⟩
    rw [First, heq]
    exact hfirst'
  · have heq : neededAt credentialTypes (leafScope credentialTypes (st.hops ++ [hop]))
        st.hops.length =
          neededAt credentialTypes (leafScope credentialTypes st.hops) st.hops.length := by
      cases hhops : st.hops with
      | nil => rfl
      | cons first rest => rfl
    refine ⟨⟨record, husable.of_needed heq⟩, ?_⟩
    rw [First, heq]
    exact hfirst

/-- The chain that a walk returns is a path of usable first picks. -/
theorem Climbed.leads (h : V.Climbed subjectDid credentialTypes st)
    (hanchors : ∀ did ∈ Path.vertices TrustHop.accreditor subjectDid st.hops, did ∉ anchors)
    (hwalk : V.walk subjectDid credentialTypes anchors maxDepth left st = .ok chain)
    (hdepth : st.hops.length + left ≤ maxDepth) :
    V.Leads subjectDid credentialTypes anchors maxDepth chain.hops chain.anchor ∧
      ∀ n hop, chain.hops[n]? = some hop →
        V.First credentialTypes (leafScope credentialTypes chain.hops) n hop := by
  induction left generalizing st with
  | zero => cases hwalk
  | succ left ih =>
    obtain ⟨hop, s, hclimb, hnext⟩ := walk_succ_eq_ok.mp hwalk
    obtain ⟨hsubject, rfl, hpicks⟩ := h.picks_snoc hclimb
    have hlinked := h.linked.snoc hsubject
    rcases hnext with ⟨hanchor, rfl⟩ | ⟨hanchor, hunseen, hwalk'⟩
    · refine ⟨?_, fun n hop' hn => (hpicks n hop' hn).2⟩
      exact {
        nonempty := by simp
        linked := hlinked
        distinct := Path.nodup_vertices_snoc h.nodup fun hmem => hanchors _ hmem hanchor
        length := by
          rw [List.length_append, List.length_singleton]
          omega
        anchored := hanchor
        usable := fun n hop' hn => (hpicks n hop' hn).1 }
    · have hclimbed : V.Climbed subjectDid credentialTypes ⟨hop.accreditor,
          hop.accreditor :: st.seen, some (leafScope credentialTypes (st.hops ++ [hop])),
          st.hops ++ [hop]⟩ := {
        onPath := ⟨by simp, fun s hs => by cases hs; rfl⟩
        linked := hlinked
        nodup := Path.nodup_vertices_snoc h.nodup fun hmem => hunseen (h.seen _ hmem)
        seen := fun did hdid => by
          rw [Path.vertices_snoc, List.mem_append, List.mem_singleton] at hdid
          rw [List.mem_cons]
          exact hdid.symm.imp_right (h.seen did)
        picks := hpicks }
      refine ih hclimbed ?_ hwalk' ?_
      · intro did hdid
        rw [Path.vertices_snoc, List.mem_append, List.mem_singleton] at hdid
        rcases hdid with hdid | rfl
        · exact hanchors did hdid
        · exact hanchor
      · rw [List.length_append, List.length_singleton]
        omega

theorem climbed_init :
    V.Climbed subjectDid credentialTypes ⟨subjectDid, [subjectDid], none, []⟩ where
  onPath := ⟨by simp, by simp⟩
  linked := Path.Linked.nil
  nodup := List.nodup_singleton _
  seen := fun _ hdid => hdid
  picks := nofun

/-! ## Other registries -/

/-- A trust registry whose records list at least the accreditations of another; what the rest of
the verifier does is the same. -/
structure Extends (V V' : Verifier) : Prop where
  records : ∀ n did record, V.currentRecord n did = .ok record →
    ∃ record', V'.currentRecord n did = .ok record' ∧ Lists record record'
  verifies : V'.verifyAccreditation = V.verifyAccreditation
  status : V'.checkAccreditationStatus = V.checkAccreditationStatus

theorem Extends.climb_eq_ok {V' : Verifier} (h : Extends V V') {s : Finset Str}
    (hclimb : V.climb credentialTypes st = .ok (hop, s)) :
    V'.climb credentialTypes st = .ok (hop, s) := by
  simp only [climb, bind_eq_ok, orRaise_eq_ok, pure_eq_ok] at hclimb ⊢
  obtain ⟨record, hrecord, acc, hpick, accreditor, htao, vc, hvc, ⟨⟩, hstatus, heq⟩ := hclimb
  obtain ⟨record', hrecord', hlists⟩ := h.records _ _ _ hrecord
  refine ⟨record', hrecord', acc, pickAccreditation_of_lists hlists hpick, accreditor, htao, vc,
    ?_, (), ?_, heq⟩
  · rw [h.verifies]
    exact hvc
  · rw [h.status]
    exact hstatus

/-- And so does the loop. -/
theorem Extends.walk_eq_ok {V' : Verifier} (h : Extends V V')
    (hwalk : V.walk subjectDid credentialTypes anchors maxDepth left st = .ok chain) :
    V'.walk subjectDid credentialTypes anchors maxDepth left st = .ok chain := by
  induction left generalizing st with
  | zero => cases hwalk
  | succ left ih =>
    rw [walk_succ_eq_ok] at hwalk ⊢
    obtain ⟨hop, s, hclimb, hnext⟩ := hwalk
    refine ⟨hop, s, h.climb_eq_ok hclimb, hnext.imp_right ?_⟩
    rintro ⟨hanchor, hunseen, hwalk⟩
    exact ⟨hanchor, hunseen, ih hwalk⟩

/-! ## Completeness -/

/-- `verify_trust_chain` returns a chain exactly when the subject is an anchor or the accreditations
that come first among those that will do lead from its record to one; and a registry that lists
others besides, not eligible or after the eligible ones, changes nothing in that chain. -/
theorem verifyTrustChain_complete (V : Verifier) (subjectDid : Str) (credentialTypes : List Str)
    (anchors : Finset Str) (maxDepth : Nat) :
    ((∃ chain, V.verifyTrustChain subjectDid credentialTypes anchors maxDepth = .ok chain) ↔
      subjectDid ∈ anchors ∨
        ∃ hops anchor, V.Leads subjectDid credentialTypes anchors maxDepth hops anchor ∧
          ∀ n hop, hops[n]? = some hop →
            V.First credentialTypes (leafScope credentialTypes hops) n hop) ∧
    ∀ V' : Verifier, Extends V V' → ∀ chain,
      V.verifyTrustChain subjectDid credentialTypes anchors maxDepth = .ok chain →
        V'.verifyTrustChain subjectDid credentialTypes anchors maxDepth = .ok chain := by
  by_cases hanchor : subjectDid ∈ anchors
  · simp only [verifyTrustChain, hanchor, if_true, true_or, iff_true]
    exact ⟨⟨_, rfl⟩, fun _ _ _ h => h⟩
  simp only [verifyTrustChain, hanchor, if_false, false_or]
  refine ⟨⟨?_, ?_⟩, fun V' h chain hwalk => h.walk_eq_ok hwalk⟩
  · rintro ⟨chain, hwalk⟩
    refine ⟨chain.hops, chain.anchor, climbed_init.leads ?_ hwalk (by simp)⟩
    intro did hdid
    rw [Path.vertices, List.map_nil, List.mem_singleton] at hdid
    exact hdid ▸ hanchor
  · rintro ⟨hops, anchor, hleads, hfirst⟩
    exact exists_walk_eq_ok hleads.nonempty (List.nil_append hops).symm ⟨by simp, by simp⟩
      hleads.linked hleads.distinct (fun _ hdid => hdid) hleads.length hleads.anchored
      fun n hop hn => ⟨hleads.usable n hop hn, hfirst n hop hn⟩

/-- What the evaluation of a hop establishes. -/
theorem exists_usable {n : Nat} (accs : List Accreditation)
    (hrecord : (V.currentRecord n hop.subject).toOption.map
      (fun record => (record.hasAttributes, record.accreditations)) = some (true, accs))
    (hlisted : hop.accreditation ∈ accs)
    (hsuits : Suits (neededAt credentialTypes scope n) (n == 0) hop.accreditation)
    (haccreditor : hop.accreditation.tao = some hop.accreditor ∧ hop.accreditor ≠ [])
    (hverified : (V.verifyAccreditation n hop.accreditation hop.subject hop.accreditor >>=
      V.checkAccreditationStatus n hop.subject).toOption = some ()) :
    ∃ record, V.Usable credentialTypes scope n hop record := by
  obtain ⟨record, hresolved, heq⟩ := exists_ok_of_map hrecord
  rw [Prod.mk.injEq] at heq
  exact ⟨record, {
    resolved := hresolved
    hasAttributes := heq.1
    listed := heq.2 ▸ hlisted
    suits := hsuits
    accreditor := haccreditor
    verified := bind_eq_ok.mp (eq_ok_of_toOption hverified) }⟩

end Verifier

/-! ## A forged accreditation that is listed first -/

/-- The accreditation of the university under another signature. -/
def forgedToken : Str := uniToken.dropLast ++ lit "g"

/-- The registries of the two hops, the university's record listing an attribute for each token. -/
def listedGet (tokens : List Str) : HttpGet
  | .attributes 0 0, _ => .ok (.obj [("items", .arr (tokens.map fun _ => .obj [("id", .str "a"),
      ("href", .str "https://n/a")])), ("total", .int tokens.length)])
  | .revision 0 n, _ => .ok (revisionOf "TI" taoDid (tokens.getD n []))
  | request, url => twoHopGet request url

/-- The verifier over them. -/
def listedVerifier (tokens : List Str) : Verifier :=
  { twoHopVerifier with resolver := { twoHopVerifier.resolver with get := listedGet tokens } }

/-- The ministry's accreditation of the university, and the root's of the ministry. -/
def listedHops : List TrustHop :=
  [⟨uniDid, taoDid, ⟨lit "a", lit "TI", some taoDid, none, [lit "Diploma", lit "Badge"],
      some uniToken, [lit "VerifiableAccreditationToAttest"]⟩⟩,
    ⟨taoDid, rootDid, ⟨lit "a", lit "TAO", some rootDid, none, [lit "Diploma", lit "Licence"],
      some taoToken, [lit "VerifiableAccreditationToAccredit"]⟩⟩]

/-- The two hops lead to the root, but no chain is returned when the forged accreditation is listed
first, and one is when it is listed second. -/
theorem verifyTrustChain_forgedFirst :
    ((listedVerifier [forgedToken, uniToken]).Leads uniDid [lit "Diploma"] {rootDid} 6 listedHops
      rootDid) ∧
    (¬ ∃ chain, (listedVerifier [forgedToken, uniToken]).verifyTrustChain uniDid [lit "Diploma"]
      {rootDid} 6 = .ok chain) ∧
    ∃ chain, (listedVerifier [uniToken, forgedToken]).verifyTrustChain uniDid [lit "Diploma"]
      {rootDid} 6 = .ok chain := by
  refine ⟨⟨by decide, rfl, ?_, by decide, Finset.mem_singleton_self _, ?_⟩, ?_, ?_⟩
  · unfold listedHops uniDid taoDid rootDid
    repeat rw [lit_ofList]
    decide +kernel
  · rintro (_ | _ | n) hop hn
    · cases hn
      refine Verifier.exists_usable [⟨lit "a", lit "TI", some taoDid, none,
        [lit "Diploma", lit "Badge"], some forgedToken, [lit "VerifiableAccreditationToAttest"]⟩,
        ⟨lit "a", lit "TI", some taoDid, none, [lit "Diploma", lit "Badge"], some uniToken,
          [lit "VerifiableAccreditationToAttest"]⟩] ?_
        (List.mem_cons_of_mem _ List.mem_cons_self) ⟨by decide +kernel, by decide +kernel⟩
        ⟨rfl, by decide +kernel⟩ ?_
      all_goals
        unfold listedVerifier twoHopVerifier listedGet twoHopGet forgedToken uniToken taoToken
          uniDid taoDid rootDid
        simp only [List.flatMap_cons, List.flatMap_nil]
        repeat rw [lit_ofList]
        decide +kernel
    · cases hn
      refine Verifier.exists_usable [⟨lit "a", lit "TAO", some rootDid, none,
        [lit "Diploma", lit "Licence"], some taoToken,
        [lit "VerifiableAccreditationToAccredit"]⟩] ?_ List.mem_cons_self
        ⟨by decide +kernel, by decide +kernel⟩ ⟨rfl, by decide +kernel⟩ ?_
      all_goals
        unfold listedVerifier twoHopVerifier listedGet twoHopGet forgedToken uniToken taoToken
          uniDid taoDid rootDid
        simp only [List.flatMap_cons, List.flatMap_nil]
        repeat rw [lit_ofList]
        decide +kernel
    · cases hn
  · have hraises : ((listedVerifier [forgedToken, uniToken]).verifyTrustChain uniDid [lit "Diploma"]
        {rootDid} 6).toOption.isSome = false := by
      unfold listedVerifier twoHopVerifier listedGet twoHopGet forgedToken uniToken taoToken
        uniDid taoDid rootDid
      simp only [List.flatMap_cons, List.flatMap_nil]
      repeat rw [lit_ofList]
      decide +kernel
    rintro ⟨chain, hchain⟩
    rw [hchain] at hraises
    cases hraises
  · obtain ⟨chain, hchain, -⟩ := exists_ok_of_map
      (x := (listedVerifier [uniToken, forgedToken]).verifyTrustChain uniDid [lit "Diploma"]
        {rootDid} 6) (f := fun _ => ()) (c := ()) (by
        unfold listedVerifier twoHopVerifier listedGet twoHopGet forgedToken uniToken taoToken
          uniDid taoDid rootDid
        simp only [List.flatMap_cons, List.flatMap_nil]
        repeat rw [lit_ofList]
        decide +kernel)
    exact ⟨chain, hchain⟩

end OpenVC.Ebsi
