import Anunix.Sshd.Sessions

/-!
# The host key

`ensure_host_key` makes a key where none is stored and hands back a stored key of 96 bytes, so the
key stays (`hostKey_lasts`). A stored key of another length stays as well: its name is of the
connectivity class, so `anx_credential_revoke` refuses to remove it and `anx_credential_create`
finds it taken (`hostKey_stuck`).
-/

namespace Anunix.Sshd

open Fallible Credential Slots List

variable {env : Env} {s : State}

def hostKeyEntry (s : State) : Option (Nat × Entry) :=
  findByName s.kernel.slots (CString.ofString "ssh-host-key")

def StoresHostKey (s : State) : Prop :=
  s.hostPub.length = 32 ∧ s.hostPriv.length = 64 ∧
    ∃ i e, hostKeyEntry s = some (i, e) ∧ e.secret = s.hostPub ++ s.hostPriv

/-- Reading a stored key changes nothing of it but its record of accesses. -/
lemma ensureHostKey_found {i : Nat} {e : Entry} {Q : PUnit → State → Prop} {E : Halt → State → Prop}
    (hfind : hostKeyEntry s = some (i, e))
    (h : ∀ t e', hostKeyEntry t = some (i, e') → e'.secret = e.secret →
      Ends (useHostKey env (.ok (e.secret.take 96, e.secret.length))) t Q E) :
    Ends (ensureHostKey env) s Q E := by
  obtain ⟨hget, hname⟩ := firstWith_eq_some hfind
  apply ends_exists_bind
  rw [← hostKeyEntry, hfind]
  apply ends_ask_bind
  apply Ends.attempt_bind
  apply ends_kern
  apply Ends.orThrow_bind
  · intro hnone
    cases hfind.symm.trans hnone
  · intro p hp
    cases hfind.symm.trans hp
    exact h _ _ (firstWith_set (lt_of_get hget) (before_firstWith hfind) hname) rfl

lemma ensureHostKey_stored {i : Nat} {e : Entry} (hfind : hostKeyEntry s = some (i, e))
    (hlen : e.secret.length = 96) : Succeeds (ensureHostKey env) s fun _ s' =>
      s'.hostPub = e.secret.take 32 ∧ s'.hostPriv = e.secret.drop 32 ∧
        ∃ e', hostKeyEntry s' = some (i, e') ∧ e'.secret = e.secret := by
  refine ensureHostKey_found hfind fun t e' hentry hsecret => ?_
  rw [hlen, take_of_length_le (Nat.le_of_eq hlen)]
  exact ⟨rfl, rfl, e', hentry, hsecret⟩

lemma slots_save (r : Around) (k : Credential.State) : (save r k).slots = k.slots := by
  unfold save
  split <;> rfl

lemma create_new {r : Around} {k : Credential.State} {name : CString} {credType : CredType}
    {secret : List UInt8} (hsecret : secret ≠ []) (halloc : r.alloc = true)
    (hfind : findByName k.slots name = none) (hfree : none ∈ k.slots)
    (hname : name.take (nameSize - 1) = name) :
    Succeeds (create r name credType secret) k fun _ k' =>
      ∃ i e, findByName k'.slots name = some (i, e) ∧ e.secret = secret := by
  obtain ⟨i, hi⟩ := exists_firstFree (countP_pos_iff.mpr ⟨none, hfree, rfl⟩)
  refine .pass (isEmpty_eq_false_iff.mpr hsecret)
    (.pass (by rw [halloc]; rfl) (.pass (congrArg Option.isSome hfind) ?_))
  apply Ends.orThrow_bind
  · intro hnone
    cases hi.symm.trans hnone
  · intro j hj
    cases hi.symm.trans hj
    refine ⟨i, ⟨name.take (nameSize - 1), credType, secret, r.now, 0, 0⟩, ?_, rfl⟩
    rw [slots_save]
    refine firstWith_set (firstFree_eq_some hi).1 (fun j b _ hget => ?_) (decide_eq_true hname)
    apply eq_false_of_ne_true
    intro hb
    obtain ⟨_, _, hsome⟩ := exists_firstWith (p := fun e => e.name = name) hget hb
    cases hfind.symm.trans hsome

/-- The sizes of the arrays that `anx_ed25519_keypair` fills. -/
def KeySizes (env : Env) : Prop :=
  ∀ t, (env.crypto.ed25519Keypair (env.random t 32)).1.length = 32 ∧
    (env.crypto.ed25519Keypair (env.random t 32)).2.length = 64

lemma ensureHostKey_absent (hfind : hostKeyEntry s = none) (hfree : none ∈ s.kernel.slots)
    (halloc : ∀ t, (env.around t).alloc = true) (hsize : KeySizes env) :
    Succeeds (ensureHostKey env) s fun _ s' => StoresHostKey s' := by
  apply ends_exists_bind
  rw [← hostKeyEntry, hfind]
  apply ends_ask_bind
  apply Ends.modify_bind
  apply ends_ask_bind
  apply ends_kern
  obtain ⟨hpub, hpriv⟩ := hsize s.tick
  refine (create_new ?_ (halloc _) hfind hfree (by decide +kernel)).post fun _ k ⟨i, e, hentry,
    hsecret⟩ => ?_
  · rw [← length_pos_iff, length_append, hpub]
    omega
  · exact ⟨hpub, hpriv, i, e, hentry, hsecret⟩

/-- A key of another length stays in the way: it can be neither removed nor created again. -/
lemma ensureHostKey_cut {i : Nat} {e : Entry} (hfind : hostKeyEntry s = some (i, e))
    (hlen : e.secret.length ≠ 96) :
    Ends (ensureHostKey env) s (fun _ _ => False) fun _ _ => True := by
  refine ensureHostKey_found hfind fun t e' hentry _ => ?_
  unfold useHostKey
  split
  · rename_i heq
    exact absurd (congrArg Prod.snd (Except.ok.inj heq)) hlen
  apply ends_ask_bind
  -- the class of the name refuses the revocation
  have hclass : decide (classOf (CString.ofString "ssh-host-key") = .connectivity) = true := by
    decide +kernel
  have hrefused (s : State) : ignore
      (kern (revoke (env.around t.tick) (CString.ofString "ssh-host-key"))) s = .ok ⟨⟩ s := by
    simp only [ignore, kern, revoke, hclass]
    rfl
  refine Ends.call (Q := fun _ s' => s'.kernel = t.kernel) (E := fun _ _ => False) ?_
    (fun _ s' hs' => ?_) fun _ _ => False.elim
  · simp only [Ends, hrefused]
  apply ends_kern
  refine .failIf_bind (fun _ => trivial) fun _ => .failIf_bind (fun _ => trivial) fun _ => ?_
  refine .get_bind (.failIf_bind (fun _ => trivial) fun hfree => ?_)
  rw [hostKeyEntry, ← hs'] at hentry
  cases hfree.symm.trans (congrArg Option.isSome hentry)

/-- **The host key stays**, exactly if no key is stored or one of 96 bytes. -/
theorem hostKey_lasts {env : Env} {s : State} (hfree : none ∈ s.kernel.slots)
    (halloc : ∀ t, (env.around t).alloc = true) (hsize : KeySizes env) :
    (Succeeds (ensureHostKey env) s fun _ s' => StoresHostKey s' ∧
      ∀ env' t, t.kernel.slots = s'.kernel.slots → Succeeds (ensureHostKey env') t fun _ t' =>
        t'.hostPub = s'.hostPub ∧ t'.hostPriv = s'.hostPriv) ↔
    ∀ i e, hostKeyEntry s = some (i, e) → e.secret.length = 96 := by
  refine ⟨fun hlasts i e hfind => ?_, fun hwhole => ?_⟩
  · by_contra hlen
    cases hr : ensureHostKey env s with
    | ok => exact (ensureHostKey_cut hfind hlen).of_ok hr
    | error => exact hlasts.of_error hr
  have hstored : Succeeds (ensureHostKey env) s fun _ s' => StoresHostKey s' := by
    cases hfind : hostKeyEntry s with
    | none => exact ensureHostKey_absent hfind hfree halloc hsize
    | some p =>
      obtain ⟨i, e⟩ := p
      have hlen := hwhole i e hfind
      refine (ensureHostKey_stored hfind hlen).post
        fun _ s' ⟨hpub, hpriv, e', hentry, hsecret⟩ => ?_
      refine ⟨by simp [hpub, hlen], by simp [hpriv, hlen], i, e', hentry, ?_⟩
      rw [hsecret, hpub, hpriv, take_append_drop]
  refine hstored.post fun _ s' hstores => ⟨hstores, fun env' t hslots => ?_⟩
  obtain ⟨hpub, hpriv, i, e, hentry, hsecret⟩ := hstores
  have hentry' : hostKeyEntry t = some (i, e) := by rwa [hostKeyEntry, hslots]
  refine (ensureHostKey_stored hentry' (by simp [hsecret, hpub, hpriv])).post fun _ t' ⟨hpub',
    hpriv', _⟩ => ?_
  rw [hpub', hpriv', hsecret, take_left' hpub, drop_left' hpub]
  exact ⟨rfl, rfl⟩

/-- A store with a free slot in which the host key was cut to one byte. -/
def cutKey : State :=
  State.initial { freshMachine.kernel with
    slots := [some ⟨CString.ofString "ssh-host-key", 3, [1], 7, 0, 0⟩, none] } freshMachine.user []

/-- A stored key that was cut short is neither used nor replaced. -/
theorem hostKey_stuck : none ∈ cutKey.kernel.slots ∧
    outcome (ensureHostKey plainEnv) cutKey = .error (.code .eexist) := by
  decide +kernel

/-- On a fresh machine a host key is made and stored. -/
theorem hostKey_lasts_fresh : Succeeds (ensureHostKey plainEnv)
    (State.initial freshMachine.kernel freshMachine.user []) fun _ s' => StoresHostKey s' := by
  have hnone : hostKeyEntry (State.initial freshMachine.kernel freshMachine.user []) = none := by
    decide +kernel
  refine ((hostKey_lasts (by decide +kernel) (fun _ => rfl) fun _ => ⟨rfl, rfl⟩).mpr
    fun i e h => ?_).post fun _ _ h => h.1
  cases hnone.symm.trans h

end Anunix.Sshd
