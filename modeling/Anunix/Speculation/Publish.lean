import Anunix.Object.Calls
import Anunix.Speculation.Speculation

/-!
# Publishing a prediction

What the part of `anx_speculation_commit` that works on the origin object does to the store: it
publishes the predicted result on an object that is what it was when the prediction was made, or it
leaves every object as it was.
-/

namespace Anunix.Speculation
open Fallible Object

variable {s s' t : Store} {a : Around} {r : Record} {h addr : Nat} {obj : StateObject}
  {E : Err → Store → Prop} {p : Payload} {env : Env}

/-! ## Handles on the stack -/

/-- Only review records and one handle variable are different. -/
structure Aside (h : Nat) (s t : Store) : Prop where
  sha256 : t.sha256 = s.sha256
  objects : t.objects = s.objects
  table : t.table = s.table
  sequence : t.sequence = s.sequence
  handles : ∀ k, k ≠ h → t.handles k = s.handles k

lemma aside_setHandle (s : Store) (h : Nat) (handle : Handle) : Aside h s (s.setHandle h handle) :=
  ⟨rfl, rfl, rfl, rfl, fun _ hk => Function.update_of_ne hk _ _⟩

lemma Aside.trans (h1 : Aside h s s') (h2 : Aside h s' t) : Aside h s t where
  sha256 := h2.sha256.trans h1.sha256
  objects := h2.objects.trans h1.objects
  table := h2.table.trans h1.table
  sequence := h2.sequence.trans h1.sequence
  handles k hk := (h2.handles k hk).trans (h1.handles k hk)

lemma Aside.of_records (h1 : OnlyRecords s t) : Aside h s t where
  sha256 := h1.sha256
  objects := h1.objects
  table := h1.table
  sequence := h1.sequence
  handles k _ := congrFun h1.handles k

lemma Aside.setObject (h1 : Aside h s t) (addr : Nat) (obj : StateObject) :
    Aside h (s.setObject addr obj) (t.setObject addr obj) where
  sha256 := h1.sha256
  objects := congrArg (List.set · addr obj) h1.objects
  table := h1.table
  sequence := h1.sequence
  handles := h1.handles

/-- Once the variable is out of scope nothing is left of it. -/
lemma Aside.restore (h1 : Aside h s t) : OnlyRecords s (t.setHandle h (s.handles h)) where
  sha256 := h1.sha256
  objects := h1.objects
  table := h1.table
  sequence := h1.sequence
  handles := by
    funext k
    by_cases hk : k = h
    · subst hk
      exact Function.update_self _ _ _
    · exact (Function.update_of_ne hk _ _).trans (h1.handles k hk)

lemma withHandle_ends {α : Type} {x : Prog α} {Q : α → Store → Prop}
    (hx : Ends x (s.setHandle h ⟨none, .read, 0⟩) (fun a t => Q a (t.setHandle h (s.handles h)))
      fun e t => E e (t.setHandle h (s.handles h))) : Ends (withHandle h x) s Q E := by
  cases hr : x (s.setHandle h ⟨none, .read, 0⟩) <;> simpa [Ends, withHandle, hr] using hx

lemma heldObject_ends (hh : s.held h = some (addr, obj)) {Q : StateObject → Store → Prop}
    (hQ : Q obj s) : Ends (heldObject h) s Q E := by
  simp only [heldObject, Ends, Bind.bind, EStateM.bind, MonadState.get, getThe, MonadStateOf.get,
    EStateM.get, hh]
  exact hQ

/-! ## Writing an object twice -/

lemma setObject_setObject (s : Store) (addr : Nat) (obj obj' : StateObject) :
    (s.setObject addr obj).setObject addr obj' = s.setObject addr obj' := by
  simp [Store.setObject]

lemma setObject_self (ho : s.objects[addr]? = some obj) : s.setObject addr obj = s := by
  obtain ⟨hlt, he⟩ := List.getElem?_eq_some_iff.mp ho
  subst he
  simp [Store.setObject]

/-! ## The checked origin -/

/-- The origin of a record, unchanged since the record was prepared. -/
structure Record.Fits (r : Record) (s : Store) (addr : Nat) (obj : StateObject) : Prop where
  found : s.lookup r.view.origin = some (addr, obj)
  active : obj.state = .active
  unstaged : obj.staged = none
  version : obj.version = r.view.originVersion
  type : obj.objectType = r.type
  sensitivity : obj.sensitivity = r.sensitivity
  digest : s.sha256 (schemaBytes obj ++ obj.payload.bytes) = r.digest

lemma originDigest_eq_ok {sha256 : List UInt8 → Digest} {owner : Uuid} {digest : Digest}
    (hd : originDigest sha256 obj owner = .ok digest) :
    obj.state = .active ∧ digest = sha256 (schemaBytes obj ++ obj.payload.bytes) := by
  obtain ⟨_, hactive, hd⟩ := bind_eq_ok.mp hd
  obtain ⟨_, -, hd⟩ := bind_eq_ok.mp hd
  obtain ⟨_, -, hd⟩ := bind_eq_ok.mp hd
  exact ⟨by simpa using failIf_eq_ok.mp hactive, (Except.ok.inj hd).symm⟩

lemma originCheck_fits (hl : s.lookup r.view.origin = some (addr, obj))
    (hc : r.originCheck s.sha256 obj false = .ok ()) : r.Fits s addr obj := by
  obtain ⟨digest, hd, hc⟩ := bind_eq_ok.mp hc
  obtain ⟨_, hstaged, hc⟩ := bind_eq_ok.mp hc
  obtain ⟨hactive, rfl⟩ := originDigest_eq_ok hd
  have hunstaged : obj.staged = none := by
    have hs := failIf_eq_ok.mp hstaged
    cases hst : obj.staged with
    | none => rfl
    | some stage => simp [hst] at hs
  have hsame := failIf_eq_ok.mp hc
  simp only [Bool.or_eq_false_iff, decide_eq_false_iff_not, not_not] at hsame
  obtain ⟨⟨⟨hversion, htype⟩, hlabel⟩, hdigest⟩ := hsame
  exact ⟨hl, hactive, hunstaged, hversion, htype, hlabel, hdigest⟩

/-! ## Under the stage -/

def stagedBy (r : Record) (obj : StateObject) (p : Payload) : StateObject :=
  { obj with staged := some { obj.newStage r.view.owner with shadow := p } }

lemma replaceStaged_ends (hw : s.Writes 0 addr) (ho : s.objects[addr]? = some (stagedBy r obj p)) :
    Ends (replaceStaged a r) s
      (fun _ t => a.clock 1 < r.view.expiresAt ∧
        OnlyRecords (s.setObject addr
          { obj.mutate s.sha256 r.result.replacement with staged := none }) t)
      (fun _ t => ∃ p', OnlyRecords (s.setObject addr (stagedBy r obj p')) t) := by
  have hself : OnlyRecords (s.setObject addr (stagedBy r obj p)) s := by
    rw [setObject_self ho]
    exact refl_of OnlyRecords s
  refine .bind (heldObject_ends (held_eq_some.mpr ⟨hw.1, ho⟩) ?_)
  refine .get_bind (.ofExcept_bind (fun _ _ => ⟨p, hself⟩) fun _ _ => ?_)
  refine .call soReplacePayload_ends ?_ ?_
  · rintro _ t ⟨addr', obj', hw', ho', -, rfl⟩
    cases hw.1.symm.trans hw'.1
    cases ho.symm.trans ho'
    -- The replacement went into the shadow.
    refine .failIf_bind (fun _ => ⟨_, refl_of OnlyRecords _⟩) fun htime => ?_
    have hnow : a.clock 1 < r.view.expiresAt := by simpa using htime
    refine .mono objectCommit_ends ?_ fun _ t hviews => ⟨_, hviews.toOnlyRecords⟩
    rintro _ t ⟨targets, hlists, -, hb⟩
    have honly := hb.onlyRecords hlists hw (getElem?_setObject_self ho)
    rw [setObject_setObject] at honly
    exact ⟨hnow, honly⟩
  · rintro _ t rfl
    exact ⟨p, hself⟩

lemma objectAbort_succeeds {stage : StagedMutation} (hw : s.Writes h addr)
    (ho : s.objects[addr]? = some obj) (hs : obj.staged = some stage)
    (hwriter : obj.stageCheckWriter env.current = .ok ()) :
    Ends (objectAbort env h) s
    (fun _ t => OnlyViews (s.setObject addr { obj with staged := none }) t) E := by
  have hheld : s.held h = some (addr, obj) := held_eq_some.mpr ⟨hw.1, ho⟩
  have hmode : decide ((s.handles h).mode = .read) = false := by simpa using hw.2
  refine .bind (.get_bind (.orThrow_bind (fun e => ?_) fun target ht => ?_))
  · rw [hheld] at e
    cases e
  cases hheld.symm.trans ht
  refine .failIf_bind (fun e => ?_) fun _ => ?_
  · rw [hmode] at e
    cases e
  refine .bind (.get_bind (.orThrow_bind (fun e => ?_) fun obj' ho' => ?_))
  · rw [ho] at e
    cases e
  cases ho.symm.trans ho'
  refine .failIf_bind (fun e => ?_) fun _ => ?_
  · rw [hs] at e
    cases e
  rw [hwriter]
  exact .modify (abortDiscard_eq ho)

lemma callerCheck_writer (hc : callerCheck env r.view.owner = .ok ()) :
    (stagedBy r obj p).stageCheckWriter env.current = .ok () := by
  have hany := failIf_eq_ok.mp hc
  cases hcur : env.current with
  | none => rfl
  | some caller =>
    rw [hcur] at hany
    exact failIf_eq_ok.mpr hany

/-! ## The whole attempt -/

lemma publish_ends (hcaller : callerCheck a.env r.view.owner = .ok ()) : Ends (publish a r) s
      (fun _ t => a.clock 1 < r.view.expiresAt ∧ ∃ addr obj, r.Fits s addr obj ∧
        OnlyRecords (s.setObject addr (obj.mutate s.sha256 r.result.replacement)) t)
      (fun _ t => OnlyRecords s t) := by
  refine withHandle_ends (.call soOpen_ends ?_ ?_)
  · rintro _ t ⟨addr, obj, hl, -, -, rfl⟩
    have hl' : s.lookup r.view.origin = some (addr, obj) := hl
    have ho := (lookup_eq_some hl').2.1
    -- The store with the handle open on the origin.
    let s1 := (s.setHandle 0 ⟨none, .read, 0⟩).setHandle 0 ⟨some addr, .readwrite, obj.version⟩
    have hs1 : Aside 0 s s1 := (aside_setHandle s 0 _).trans (aside_setHandle _ 0 _)
    have hw : s1.Writes 0 addr := by
      exact ⟨rfl, nofun⟩
    refine .bind (heldObject_ends (held_eq_some.mpr ⟨hw.1, ho⟩) ?_)
    refine .get_bind (.ofExcept_bind (fun _ _ => hs1.restore) fun _ hcheck => ?_)
    have hfits := originCheck_fits hl' hcheck
    refine .call objectStage_ends ?_ ?_
    · rintro _ t ⟨addr', obj', hw', ho', -, -, rfl⟩
      cases hw.1.symm.trans hw'.1
      cases ho.symm.trans ho'
      -- The store with the stage on it.
      let shadow := (obj.newStage r.view.owner).shadow
      have hat : (s1.setObject addr (stagedBy r obj shadow)).objects[addr]? =
          some (stagedBy r obj shadow) :=
        getElem?_setObject_self ho
      have hw2 : (s1.setObject addr (stagedBy r obj shadow)).Writes 0 addr := hw
      refine .attempt_bind (.mono (replaceStaged_ends hw2 hat) ?_ ?_)
      · rintro _ t ⟨htime, hrec⟩
        rw [setObject_setObject] at hrec
        refine ⟨htime, addr, obj, hfits, ?_⟩
        have hpub : { obj.mutate s.sha256 r.result.replacement with staged := none } =
            obj.mutate s.sha256 r.result.replacement := by
          simp only [StateObject.mutate, hfits.unstaged]
        have haside := (hs1.setObject addr _).trans (.of_records hrec)
        have hrestored := haside.restore
        rw [← hpub]
        exact hrestored
      · rintro e t ⟨p, hrec⟩
        rw [setObject_setObject] at hrec
        -- The stage is still there, so the abort takes it away again.
        have hto : t.objects[addr]? = some (stagedBy r obj p) := by
          rw [hrec.objects]
          exact getElem?_setObject_self ho
        have htw : t.Writes 0 addr := by
          rw [Store.Writes, hrec.handles]
          exact hw
        refine .attempt_bind (.mono (objectAbort_succeeds htw hto rfl
          (callerCheck_writer hcaller) (E := fun _ _ => False)) ?_ fun _ _ hf => hf.elim)
        intro _ t' hviews
        have hgone : { stagedBy r obj p with staged := none } = obj := by
          simp only [stagedBy, ← hfits.unstaged]
        rw [hgone] at hviews
        have h2 := (Aside.of_records hrec (h := 0)).setObject addr obj
        rw [setObject_setObject, setObject_self (s := s1) ho] at h2
        exact ((hs1.trans h2).trans (.of_records hviews.toOnlyRecords)).restore
    · rintro _ t rfl
      exact hs1.restore
  · rintro _ t rfl
    exact ((aside_setHandle s 0 _).trans (aside_setHandle _ 0 _)).restore

end Anunix.Speculation
