import Anunix.Context.Validate
import Anunix.Object.Isolation

/-!
# What the context calls do

`Created` is what a successful `create` leaves behind, `Faithful` what a bundle is that `assemble`
has put together. The calls that fail leave the state as it was.
-/

namespace Anunix.Context
open Fallible Object List

structure Created (owner source : Uuid) (origin : Origin) (parents : List UInt64) (s : State)
    (r : Record) (s' : State) : Prop where
  owner : r.view.owner = owner
  source : r.view.source = source
  origin : r.view.origin = origin
  derived : r.parents = parents
  free : Slots.firstFree s.records = some r.slot
  room : s.sequence ≠ uint64Max
  id : r.view.id = s.sequence + 1
  references : r.references = 0
  shape : r.Shaped
  bounds : ∀ p ∈ parents, ∃ q, s.find p = some q ∧ Bounded r q ∧ q.depth < r.depth
  captured : ∃ obj, Current s r obj
  next : s' = { s with
    records := countReferences (· + ·) parents (s.records.set r.slot (some r)),
    sequence := r.view.id }

variable {s s' : State} {a : Around} {owner : Uuid} {r : Record}

section Create

variable {source : Uuid} {origin : Origin} {parents earlier : List UInt64} {h h' : Inherited}

/-- What the loop over the parents ends with is within the limits it started from and within those
    of every parent. -/
structure Lowered (s : State) (owner : Uuid) (parents : List UInt64) (h h' : Inherited) : Prop where
  role : h'.roleCeiling ≤ h.roleCeiling
  scope : h'.scopeCeiling ≤ h.scopeCeiling
  depth : h.depth ≤ h'.depth
  parents : ∀ p ∈ parents, ∃ q, s.find p = some q ∧ q.view.owner = owner ∧
    h'.roleCeiling ≤ q.view.roleCeiling ∧ h'.scopeCeiling ≤ q.view.scopeCeiling ∧ q.depth < h'.depth

lemma inherit_lowered (hok : s.inherit a owner source earlier parents h = .ok h') :
    Lowered s owner parents h h' := by
  induction parents generalizing earlier h with
  | nil =>
    cases hok
    exact ⟨le_refl _, le_refl _, Nat.le_refl _, nofun⟩
  | cons p parents ih =>
    obtain ⟨q, hq, hok⟩ := bind_eq_ok.mp hok
    obtain ⟨_, howner, hok⟩ := bind_eq_ok.mp hok
    obtain ⟨_, -, hok⟩ := bind_eq_ok.mp hok
    obtain ⟨seen, -, hok⟩ := bind_eq_ok.mp hok
    have howner := failIf_eq_ok.mp howner
    simp only [Bool.or_eq_false_iff, decide_eq_false_iff_not, not_not] at howner
    have hrest := ih hok
    have hrole : (h.lower q seen).roleCeiling = min q.view.roleCeiling h.roleCeiling := rfl
    have hscope : (h.lower q seen).scopeCeiling = min q.view.scopeCeiling h.scopeCeiling := rfl
    have hdepth : (h.lower q seen).depth = max h.depth (q.depth + 1) := rfl
    have hle := hrest.depth
    refine ⟨?_, ?_, by omega, ?_⟩
    · exact le_trans hrest.role (hrole ▸ min_le_right _ _)
    · exact le_trans hrest.scope (hscope ▸ min_le_right _ _)
    · intro p' hp'
      rcases mem_cons.mp hp' with rfl | hp'
      · refine ⟨q, orThrow_eq_ok.mp hq, howner.1, ?_, ?_, by omega⟩
        · exact le_trans hrest.role (hrole ▸ min_le_left _ _)
        · exact le_trans hrest.scope (hscope ▸ min_le_left _ _)
      · exact hrest.parents p' hp'

lemma inherit_nil (hok : s.inherit a owner source earlier [] h = .ok h') : h' = h :=
  (Except.ok.inj hok).symm

lemma create_ends : Atomic (create a owner source origin parents) s
      (fun view s' => ∃ r, view = r.view ∧ Created owner source origin parents s r s') := by
  refine .guard fun _ => .guard fun hargs => ?_
  refine .lift fun _ _ => .guard fun _ => ?_
  refine .fetch fun cell _ => ?_
  refine .lift fun identity _ => .get_bind ?_
  refine .lift fun h hinherit => ?_
  refine .guard fun hdepth => .lift fun obj hsource => ?_
  refine .fetch fun slot hfree => .guard fun hroom => ?_
  obtain ⟨⟨addr, hfound⟩, hadm, hpar, -⟩ := sourceCurrent_ok hsource
  have hlow := inherit_lowered hinherit
  simp only [decide_eq_false_iff_not, not_le] at hdepth
  simp only [decide_eq_false_iff_not] at hroom
  refine ⟨_, rfl, rfl, rfl, rfl, rfl, hfree, hroom, rfl, rfl, ⟨?_, ?_, hdepth⟩, ?_,
    ⟨obj, ⟨addr, hfound⟩, ?_, rfl, rfl, rfl, rfl⟩, rfl⟩
  · -- An import has no parents, so nothing lowers its ceilings.
    intro (horigin : origin ≠ .derived)
    simp only [horigin, if_false, Bool.or_eq_false_iff, decide_eq_false_iff_not, not_not] at hargs
    obtain rfl := hargs.2
    obtain rfl := inherit_nil hinherit
    exact ⟨rfl, rfl⟩
  · intro (horigin : origin = .derived)
    simp only [horigin, if_true, Bool.or_eq_false_iff, decide_eq_false_iff_not] at hargs
    exact hargs.2
  · intro p hp
    obtain ⟨q, hq, howner, hrole, hscope, hlt⟩ := hlow.parents p hp
    refine ⟨q, hq, ⟨howner, hrole, hscope, ?_⟩, hlt⟩
    simp only [Record.admissible, Bool.and_eq_true, decide_eq_true_eq] at hadm
    -- The object has as many parents as the record, so each parent of the record is compared.
    have hlen : obj.parentOids.length = parents.length := hadm.1.2
    obtain ⟨i, hi, rfl⟩ := getElem_of_mem hp
    have hmem : (obj.parentOids[i], parents[i]) ∈ obj.parentOids.zip parents :=
      mem_iff_getElem.mpr ⟨i, by rw [length_zip]; omega, by rw [getElem_zip]⟩
    have hpair := hpar _ hmem
    simp only [State.admitsParent, hq, Option.any_some, Bool.and_eq_true,
      decide_eq_true_eq] at hpair
    exact hpair.2
  · simp only [Record.admissible, Bool.and_eq_true] at hadm
    exact hadm.1.1.1.2

lemma sequence_lt {v : UInt64} (h : v ≠ uint64Max) : v < v + 1 :=
  UInt64.lt_iff_toNat_lt.mpr (by rw [toNat_succ_of_ne h]; exact Nat.lt_succ_self _)

lemma Sound.created (hs : Sound s) (hc : Created owner source origin parents s r s') :
    Sound s' := by
  have hlt : s.sequence < r.view.id := hc.id ▸ sequence_lt hc.room
  rw [hc.next, ← hc.derived]
  refine ⟨Graph.countReferences (hs.graph.set_some hc.free hlt hc.shape fun p hp => ?_),
    hs.counted.set_some hc.free hc.references (hs.graph.children_eq_zero hlt)⟩
  obtain ⟨q, hq, hb, hd⟩ := hc.bounds p (hc.derived ▸ hp)
  obtain ⟨j, hget, hid⟩ := get_of_find hq
  exact ⟨j, q, hget, hid, hb, hd⟩

end Create

/-! ## Destruction -/

section Destroy

variable {id : UInt64}

structure Destroyed (s : State) (r : Record) (s' : State) : Prop where
  found : s.find r.view.id = some r
  unused : r.references = 0
  next : s' = { s with records := countReferences (· - ·) r.parents (s.records.set r.slot none) }

lemma contextDestroy_ends : Atomic (contextDestroy a id) s (fun _ s' => ∃ r, Destroyed s r s') := by
  refine .guard fun _ => .guard fun _ => .get_bind ?_
  refine .fetch fun r hr => .guard fun hunused => ?_
  refine .modify ⟨r, ?_, by simpa using hunused, rfl⟩
  obtain ⟨i, -, hid⟩ := get_of_find hr
  exact hid ▸ hr

lemma Sound.destroyed (hs : Sound s) (hd : Destroyed s r s') : Sound s' := by
  obtain ⟨i, hget, -⟩ := get_of_find hd.found
  have hslot := hs.graph.slot i r hget
  have hchildless : children s.records r.view.id = 0 := by
    rw [← hs.counted i r hget]
    exact hd.unused
  rw [hd.next, hslot]
  exact ⟨Graph.countReferences (hs.graph.set_none hget hchildless), hs.counted.set_none hget⟩

end Destroy

/-! ## Compilation -/

def State.payloadOf (s : State) (id : UInt64) : List UInt8 :=
  match s.find id with
  | some r => (s.store.lookup r.view.source).elim [] fun x => x.2.payload.bytes
  | none => []

def BundleSegment.request (g : BundleSegment) : SpecSegment := ⟨g.id, g.role, g.scope⟩

/-- A text of a bundle stands within the limits of a clean record of the owner. -/
structure Placed (s : State) (owner : Uuid) (g : BundleSegment) (r : Record) : Prop where
  found : s.find g.id = some r
  owner : r.view.owner = owner
  role : g.role.toNat ≤ r.view.roleCeiling.code
  scope : g.scope.toNat ≤ r.view.scopeCeiling.code
  digest : g.digest = r.view.digest
  clean : Clean s r

structure Faithful (s : State) (owner : Uuid) (b : Bundle) : Prop where
  placed : ∀ g ∈ b.segments, ∃ r, Placed s owner g r
  bytes : b.bytes = (b.segments.map fun g => s.payloadOf g.id).flatten
  slices : ∀ g ∈ b.segments, g.offset + g.size.toNat ≤ b.bytes.length ∧
    (b.bytes.drop g.offset).take g.size.toNat = s.payloadOf g.id
  fits : b.bytes.length ≤ contextBytes

section Compile

variable {spec : List SpecSegment} {seen : BitVec 32} {b b' : Bundle} {segment : SpecSegment}
  {obj : StateObject}

lemma Current.payload_length (h : Current s r obj) :
    obj.payload.bytes.length = r.view.size.toNat := by
  rw [Payload.bytes_length_of_present h.present, h.size]

lemma Current.payloadOf (h : Current s r obj) (hr : s.find r.view.id = some r) :
    s.payloadOf r.view.id = obj.payload.bytes := by
  obtain ⟨addr, hfound⟩ := h.found
  rw [State.payloadOf, hr]
  show (s.store.lookup r.view.source).elim [] _ = _
  rw [hfound]
  rfl

lemma Faithful.add (hb : Faithful s owner b) (hr : s.find segment.id = some r)
    (howner : r.view.owner = owner) (hrole : segment.role.toNat ≤ r.view.roleCeiling.code)
    (hscope : segment.scope.toNat ≤ r.view.scopeCeiling.code)
    (hsize : r.view.size.toNat ≤ contextBytes - b.bytes.length) (hclean : Clean s r)
    (hcur : Current s r obj) : Faithful s owner (b.add r segment obj.payload.bytes) := by
  obtain ⟨i, -, hid⟩ := get_of_find hr
  have hfind : s.find r.view.id = some r := hid ▸ hr
  have hpay := hcur.payloadOf hfind
  have hlen := hcur.payload_length
  have hfits := hb.fits
  refine ⟨?_, ?_, ?_, ?_⟩
  · refine forall_mem_append.mpr ⟨hb.placed, forall_mem_singleton.mpr ?_⟩
    exact ⟨r, hfind, howner, hrole, hscope, rfl, hclean⟩
  · rw [Bundle.add, map_append, flatten_append, ← hb.bytes]
    simp [hpay]
  · intro g hg
    simp only [Bundle.add, length_append]
    rcases mem_append.mp hg with hg | hg
    · obtain ⟨hin, hslice⟩ := hb.slices g hg
      refine ⟨by omega, ?_⟩
      rw [drop_append_of_le_length (by omega), take_append_of_le_length (by
        rw [length_drop]; omega)]
      exact hslice
    · cases mem_singleton.mp hg
      refine ⟨by simp only; omega, ?_⟩
      rw [drop_left', ← hlen, take_length]
      · exact hpay.symm
      · rfl
  · simp only [Bundle.add, length_append]
    omega

lemma assemble_faithful (hs : Sound s) (hseen : Vouched s seen) (hb : Faithful s owner b)
    (h : s.assemble a owner spec seen b = .ok b') : Faithful s owner b' ∧
      b'.segments.map BundleSegment.request = b.segments.map BundleSegment.request ++ spec := by
  induction spec generalizing seen b with
  | nil =>
    cases h
    exact ⟨hb, (append_nil _).symm⟩
  | cons segment spec ih =>
    obtain ⟨r, hr, h⟩ := bind_eq_ok.mp h
    obtain ⟨_, hlimits, h⟩ := bind_eq_ok.mp h
    obtain ⟨_, hroom, h⟩ := bind_eq_ok.mp h
    obtain ⟨seen', hvalid, h⟩ := bind_eq_ok.mp h
    obtain ⟨obj, hsource, h⟩ := bind_eq_ok.mp h
    have hr := orThrow_eq_ok.mp hr
    obtain ⟨i, -, hid⟩ := get_of_find hr
    have hlimits := failIf_eq_ok.mp hlimits
    simp only [Bool.or_eq_false_iff, decide_eq_false_iff_not, not_not, not_lt] at hlimits
    have hroom := failIf_eq_ok.mp hroom
    simp only [decide_eq_false_iff_not, not_lt] at hroom
    obtain ⟨hseen', hclean⟩ := validate_clean hs (hid ▸ hr) hseen hvalid
    have hcur := current_of_sourceCurrent hsource
    rw [← hcur.payload_length, take_length] at h
    obtain ⟨hb', hreq⟩ :=
      ih hseen' (hb.add hr hlimits.1.1 hlimits.1.2 hlimits.2 hroom hclean hcur) h
    refine ⟨hb', ?_⟩
    rw [hreq]
    simp [Bundle.add, BundleSegment.request, hid]

lemma faithful_empty : Faithful s owner .empty :=
  ⟨nofun, rfl, nofun, Nat.zero_le _⟩

lemma contextCompile_ends (hs : Sound s) :
    Atomic (contextCompile a owner spec) s
      (fun _ s' => ∃ b, s' = { s with out := b } ∧ Faithful s owner b ∧
        b.segments.map BundleSegment.request = spec) := by
  refine .guard fun _ => .lift fun _ _ => ?_
  refine .guard fun _ => .guard fun _ => .get_bind ?_
  refine .lift fun b hb => .lift fun _ _ => ?_
  obtain ⟨hfaithful, hreq⟩ := assemble_faithful hs vouched_zero faithful_empty hb
  exact .modify ⟨b, rfl, hfaithful, hreq⟩

end Compile

end Anunix.Context
