import Anunix.Credential.Credential
import Anunix.Lib.Run
import Anunix.Lib.TwoRun

/-!
# Connectivity secrets stay hidden

Two stores agree when they differ at most in the bytes of secrets whose name is in the
connectivity class. Every call made while no session is key-authenticated answers alike in stores
that agree and leaves stores that agree, so no sequence of such calls tells the two apart.
-/

namespace Anunix.Credential

open Fallible Auth List

/-! ## Agreement -/

/-- Two credentials that differ at most in the bytes of a connectivity secret. -/
structure Entry.Agree (e f : Entry) : Prop where
  name : e.name = f.name
  credType : e.credType = f.credType
  length : e.secret.length = f.secret.length
  secret : classOf e.name = .ordinary → e.secret = f.secret
  createdAt : e.createdAt = f.createdAt
  lastAccessed : e.lastAccessed = f.lastAccessed
  accessCount : e.accessCount = f.accessCount

/-- Two stores that differ at most in the bytes of connectivity secrets. The disk image is not
compared. -/
structure Agree (s t : State) : Prop where
  slots : Slots.Alike Entry.Agree s.slots t.slots
  session : s.session = t.session

lemma Entry.Agree.refl (e : Entry) : e.Agree e :=
  ⟨rfl, rfl, rfl, fun _ => rfl, rfl, rfl, rfl⟩

lemma Entry.Agree.info {e f : Entry} (h : e.Agree f) : e.info = f.info := by
  rw [Entry.info, Entry.info, h.name, h.credType, h.length, h.createdAt, h.lastAccessed,
    h.accessCount]

lemma map_info_of_agree {es fs : List Entry} (h : List.Forall₂ Entry.Agree es fs) :
    es.map Entry.info = fs.map Entry.info := by
  induction h with
  | nil => rfl
  | cons hef _ ih => rw [map_cons, map_cons, hef.info, ih]

lemma Entry.Agree.touch {e f : Entry} (h : e.Agree f) (now : UInt64) :
    Entry.Agree { e with lastAccessed := now, accessCount := e.accessCount + 1 }
      { f with lastAccessed := now, accessCount := f.accessCount + 1 } :=
  { h with lastAccessed := rfl, accessCount := congrArg (· + 1) h.accessCount }

lemma Entry.Agree.rotate {e f : Entry} (h : e.Agree f) (secret : List UInt8) :
    Entry.Agree { e with secret := secret } { f with secret := secret } :=
  { h with length := rfl, secret := fun _ => rfl }

section Calls

variable {s t : State} {r : Around} {name : CString} {secret : List UInt8}

lemma Agree.setSlot (h : Agree s t) (i : Nat) {o o' : Option Entry}
    (ho : Option.Rel Entry.Agree o o') : Agree (s.setSlot i o) (t.setSlot i o') :=
  ⟨h.slots.set i ho, h.session⟩

lemma Agree.save (h : Agree s t) : Agree (save r s) (save r t) := by
  have hslots : ∀ u, (Credential.save r u).slots = u.slots := by
    intro u
    unfold Credential.save
    split <;> rfl
  have hsession : ∀ u, (Credential.save r u).session = u.session := by
    intro u
    unfold Credential.save
    split <;> rfl
  refine ⟨?_, ?_⟩
  · rw [hslots, hslots]
    exact h.slots
  · rw [hsession, hsession]
    exact h.session

lemma Agree.findByName (h : Agree s t) (name : CString) :
    Option.Rel (fun x y => x.1 = y.1 ∧ Entry.Agree x.2 y.2) (findByName s.slots name)
      (findByName t.slots name) := by
  apply h.slots.firstWith
  intro e f hef
  rw [hef.name]

lemma Agree.isSome_findByName (h : Agree s t) (name : CString) :
    (Credential.findByName s.slots name).isSome = (Credential.findByName t.slots name).isSome := by
  have hrel := h.findByName name
  generalize Credential.findByName s.slots name = o at hrel ⊢
  generalize Credential.findByName t.slots name = o' at hrel ⊢
  cases hrel <;> rfl

/-! ## The calls -/

section

variable (h : Agree s t)
include h

lemma alike_create (credType : CredType) :
    Alike Agree (create r name credType secret) s (create r name credType secret) t := by
  apply Alike.failIf_bind h rfl
  intro _
  apply Alike.failIf_bind h rfl
  intro _
  apply Alike.failIf_bind h (h.isSome_findByName name)
  intro _
  rw [h.slots.firstFree]
  apply Alike.orThrow_bind h (by cases Slots.firstFree t.slots <;> constructor; rfl)
  rintro i _ - - rfl
  apply Alike.bind (.modify (h.setSlot i (.some (.refl _))))
  intro _ s' t' h'
  exact .modify h'.save

lemma alike_readSystem (hname : classOf name = .ordinary) (bufLen : Nat) :
    Alike Agree (readSystem r name bufLen) s (readSystem r name bufLen) t := by
  apply Alike.orThrow_bind h (h.findByName name)
  rintro ⟨i, e⟩ ⟨j, f⟩ hi hj ⟨hij, hef⟩
  cases hij
  have hnamed : e.name = name := of_decide_eq_true (Slots.firstWith_eq_some hi).2
  have hsecret : e.secret = f.secret := hef.secret (by rw [hnamed]; exact hname)
  apply Alike.bind (.modify (h.setSlot i (.some (hef.touch r.now))))
  intro _ s' t' h'
  rw [hsecret]
  exact .pure _ h'

lemma alike_read (hkey : s.session.isKeyAuthenticated = false) (bufLen : Nat) :
    Alike Agree (read r name bufLen) s (read r name bufLen) t := by
  apply Alike.failIf_bind h (by rw [h.session])
  intro hpass
  have hordinary : classOf name = .ordinary := by
    cases hclass : classOf name with
    | ordinary => rfl
    | connectivity =>
      have hfail := of_decide_eq_false hpass
      exact absurd ⟨hclass, hkey⟩ hfail
  exact alike_readSystem h hordinary bufLen

lemma alike_info : Alike Agree (info name) s (info name) t := by
  apply Alike.orThrow_bind h (h.findByName name)
  rintro ⟨i, e⟩ ⟨j, f⟩ - - ⟨-, hef⟩
  show Alike Agree (pure e.info) s (pure f.info) t
  rw [hef.info]
  exact .pure _ h

lemma alike_rotate : Alike Agree (rotate r name secret) s (rotate r name secret) t := by
  apply Alike.failIf_bind h rfl
  intro _
  apply Alike.failIf_bind h rfl
  intro _
  apply Alike.orThrow_bind h (h.findByName name)
  rintro ⟨i, e⟩ ⟨j, f⟩ - - ⟨hij, hef⟩
  cases hij
  apply Alike.bind (.modify (h.setSlot i (.some (hef.rotate secret))))
  intro _ s' t' h'
  exact .modify h'.save

lemma alike_revoke : Alike Agree (revoke r name) s (revoke r name) t := by
  apply Alike.failIf_bind h rfl
  intro _
  apply Alike.orThrow_bind h (h.findByName name)
  rintro ⟨i, e⟩ ⟨j, f⟩ - - ⟨hij, hef⟩
  cases hij
  apply Alike.bind (.modify (h.setSlot i .none))
  intro _ s' t' h'
  exact .modify h'.save

lemma alike_wipeConnectivity (hkey : s.session.isKeyAuthenticated = false) :
    Alike Agree (wipeConnectivity r) s (wipeConnectivity r) t := by
  apply Alike.get_bind
  rw [← h.session, hkey]
  exact Alike.pure _ h

lemma alike_list (maxEntries : Nat) : Alike Agree (list maxEntries) s (list maxEntries) t := by
  apply Alike.get_bind
  have hinfos : s.entries.map Entry.info = t.entries.map Entry.info :=
    map_info_of_agree h.slots.reduceOption
  rw [map_take, map_take, hinfos]
  exact Alike.pure _ h

lemma alike_exists : Alike Agree (exists_ name) s (exists_ name) t := by
  apply Alike.get_bind
  rw [h.isSome_findByName name]
  exact Alike.pure _ h

end

end Calls

/-! ## Runs -/

inductive Call where
  | create (name : CString) (credType : CredType) (secret : List UInt8)
  | read (name : CString) (bufLen : Nat)
  | info (name : CString)
  | rotate (name : CString) (secret : List UInt8)
  | revoke (name : CString)
  | list (maxEntries : Nat)
  | exists_ (name : CString)
  | wipeConnectivity

/-- Everything a call hands back: values, the bytes written to buffers, metadata. -/
inductive Reply where
  | done
  | bytes (copied : List UInt8) (actualLen : Nat)
  | info (i : Info)
  | infos (l : List Info)
  | found (b : Bool)
  | removed (code : Except Err PUnit) (n : Nat)

def Call.exec (r : Around) : Call → Prog Reply
  | .create name credType secret => (fun _ => .done) <$> Credential.create r name credType secret
  | .read name bufLen => (fun p => .bytes p.1 p.2) <$> Credential.read r name bufLen
  | .info name => .info <$> Credential.info name
  | .rotate name secret => (fun _ => .done) <$> Credential.rotate r name secret
  | .revoke name => (fun _ => .done) <$> Credential.revoke r name
  | .list maxEntries => .infos <$> Credential.list maxEntries
  | .exists_ name => .found <$> Credential.exists_ name
  | .wipeConnectivity => (fun p => .removed p.1 p.2) <$> Credential.wipeConnectivity r

/-- What happens to the kernel: a call on the store, or a change of the current session. -/
inductive Input where
  | call (c : Call) (r : Around)
  | session (now : Session)

def State.step (s : State) : Input → State
  | .call c r => final (c.exec r) s
  | .session now => { s with session := now }

def stateAt (s : State) (run : List Input) (n : Nat) : State :=
  Run.after State.step s run n

lemma Call.alike {s t : State} (h : Agree s t) (hkey : s.session.isKeyAuthenticated = false)
    (c : Call) (r : Around) : Alike Agree (c.exec r) s (c.exec r) t := by
  cases c with
  | create name credType secret => exact (alike_create h credType).map _
  | read name bufLen => exact (alike_read h hkey bufLen).map _
  | info name => exact (alike_info h).map _
  | rotate name secret => exact (alike_rotate h).map _
  | revoke name => exact (alike_revoke h).map _
  | list maxEntries => exact (alike_list h maxEntries).map _
  | exists_ name => exact (alike_exists h).map _
  | wipeConnectivity => exact (alike_wipeConnectivity h hkey).map _

lemma Agree.step {s t : State} (h : Agree s t) (i : Input)
    (hkey : ∀ c r, i = .call c r → s.session.isKeyAuthenticated = false) :
    Agree (s.step i) (t.step i) := by
  cases i with
  | call c r => exact (Call.alike h (hkey c r rfl) c r).2
  | session now => exact ⟨h.slots, rfl⟩

/-- **Connectivity secrets do not leak without a key.** -/
theorem connectivity_secrets_hidden {s t : State} (h : Agree s t) (run : List Input)
    (hkey : ∀ n c r, run[n]? = some (.call c r) →
      (stateAt s run n).session.isKeyAuthenticated = false)
    {n : Nat} {c : Call} {r : Around} (hn : run[n]? = some (.call c r)) :
    outcome (c.exec r) (stateAt s run n) = outcome (c.exec r) (stateAt t run n) := by
  have hagree : Agree (stateAt s run n) (stateAt t run n) := by
    apply Run.after_related State.step State.step h
    intro m i hm hm'
    apply hm'.step
    rintro c' r' rfl
    exact hkey m c' r' hm
  exact (Call.alike hagree (hkey n c r hn) c r).1

def storeWith (password : List UInt8) : State where
  slots := some ⟨CString.ofString "wifi-pass", 4, password, 7, 0, 0⟩ ::
    some ⟨CString.ofString "weather-token", 1, [9, 9], 8, 0, 0⟩ :: replicate (credstoreMax - 2) none
  session := logout
  disk := none
  buf := fun _ => 0
  loading := false

def passwordRun : List Input :=
  [.session (sessionBegin (CString.ofString "guest") .password),
    .call (.read (CString.ofString "wifi-pass") 64) ⟨20, true, true, true⟩,
    .call (.read (CString.ofString "weather-token") 64) ⟨21, true, true, true⟩,
    .call (.list 16) ⟨22, true, true, true⟩]

/-- A listing does not tell two secrets of one length apart. -/
theorem connectivity_secrets_hidden_password :
    outcome (Call.exec ⟨22, true, true, true⟩ (.list 16))
    (stateAt (storeWith [1, 2, 3]) passwordRun 3) =
      outcome (Call.exec ⟨22, true, true, true⟩ (.list 16))
      (stateAt (storeWith [4, 5, 6]) passwordRun 3) := by
  have hagree : Agree (storeWith [1, 2, 3]) (storeWith [4, 5, 6]) := by
    have hrest : Slots.Alike Entry.Agree (replicate (credstoreMax - 2) none)
        (replicate (credstoreMax - 2) none) := by
      apply forall₂_same.mpr
      intro o ho
      rw [eq_of_mem_replicate ho]
      exact .none
    refine ⟨.cons (.some ⟨rfl, rfl, rfl, ?_, rfl, rfl, rfl⟩) (.cons (.some (.refl _)) hrest), rfl⟩
    intro hclass
    exact absurd hclass (by decide +kernel)
  refine connectivity_secrets_hidden hagree passwordRun ?_ rfl
  intro n c r hn
  match n with
  | 0 => cases hn
  | 1 => decide +kernel
  | 2 => decide +kernel
  | 3 => decide +kernel
  | n + 4 => cases hn

end Anunix.Credential
