import Anunix.Sshd.Checks

/-!
# No command before authentication

The log of a session says what it did in which order. `Allowed` says what has to come before a
command runs and before the kernel's session is marked as authenticated by a key; `SessionSafe` says
it of the whole session, for every client.

The proof follows the phases of a session. Before the key exchange nothing is logged but packets.
The exchange ends with the event `keys`, after which only packets with a valid tag are accepted
(`Locked`). The authentication loop ends well only with a proof in the log (`Entered`), and only
then commands run.
-/

namespace Anunix.Sshd

open Fallible Auth Credential List

/-! ## Proofs of identity -/

def Event.Tagged (C : Crypto) (key : List UInt8) : Event → Prop
  | .packet encrypted seq body tag =>
    encrypted = true ∧ C.poly1305 (sshCpPolyKey C key seq) body = tag
  | _ => True

/-- The log reaches from before the key exchange to now: `since` is what happened after the keys
were derived, and every packet in it had a matching tag under them. -/
structure Sealed (C : Crypto) (log : List Event) (sessionId key : List UInt8) (since : List Event) :
    Prop where
  split : ∃ before k h, log = before ++ .keys k h sessionId key :: since ∧
    key = deriveKey C k h 67 sessionId
  tagged : ∀ e ∈ since, e.Tagged C key

def PasswordProof (l : List Event) : Prop :=
  ∃ slots offered, .password slots offered true ∈ l ∧ PasswordAccepted slots offered

/-- A signature over the identifier of the session, a user name and a public key verified, and the
key was listed if there was a list. -/
def KeyProof (C : Crypto) (sessionId : List UInt8) (l : List Event) : Prop :=
  ∃ sig user pkBlob pk slots,
    let msg := signedData sessionId user (ascii "ssh-ed25519") pkBlob
    .signature sig msg pk true ∈ l ∧ C.ed25519Verify sig msg pk = true ∧
      pk = (pkBlob.drop 19).take 32 ∧ .authorized slots pk true ∈ l ∧ Listed slots pk

def Allowed (C : Crypto) (log : List Event) : Event → Prop
  | .execute _ => ∃ sessionId key since, Sealed C log sessionId key since ∧
      (PasswordProof since ∨ KeyProof C sessionId since)
  | .begin _ method => method = .key →
      ∃ sessionId key since, Sealed C log sessionId key since ∧ KeyProof C sessionId since
  | _ => True

def SafeLog (C : Crypto) (log : List Event) : Prop :=
  ∀ before e after, log = before ++ e :: after → Allowed C before e

/-- No shell command marks the current session as authenticated by a key. -/
def ShellPlain (env : Env) : Prop :=
  ∀ t cmd k, (env.shell t cmd k).session.isKeyAuthenticated = true →
    k.session.isKeyAuthenticated = true

/-- What holds of a session that started with the kernel session `start`: commands ran and the
kernel session was marked only after the proofs they need, and a mark that is there at the end was
there at the start or was set for such a proof. -/
structure SessionSafe (env : Env) (start : Session) (v : View) : Prop where
  log : SafeLog env.crypto v.log
  marked : ShellPlain env → v.session.isKeyAuthenticated = true →
    start.isKeyAuthenticated = true ∨ ∃ user, .begin user .key ∈ v.log

/-! ## Logging -/

def View.add (v : View) (e : Event) : View :=
  { v with log := v.log ++ [e] }

variable {since : List Event} {e : Event}

section Logging

variable {C : Crypto} {log : List Event} {sessionId key : List UInt8}

lemma SafeLog.add (h : SafeLog C log) (he : Allowed C log e) : SafeLog C (log ++ [e]) := by
  intro before f after heq
  rcases eq_nil_or_concat after with rfl | ⟨rest, g, rfl⟩
  · obtain ⟨rfl, hef⟩ := append_inj' heq rfl
    cases hef
    exact he
  · rw [concat_eq_append, ← cons_append, ← append_assoc] at heq
    obtain ⟨hlog, -⟩ := append_inj' heq rfl
    exact h before f rest hlog

lemma Sealed.add (h : Sealed C log sessionId key since) (he : e.Tagged C key) :
    Sealed C (log ++ [e]) sessionId key (since ++ [e]) := by
  obtain ⟨before, k, hash, hlog, hkey⟩ := h.split
  refine ⟨⟨before, k, hash, ?_, hkey⟩,
    forall_mem_append.mpr ⟨h.tagged, forall_mem_singleton.mpr he⟩⟩
  rw [hlog, append_assoc, cons_append]

lemma PasswordProof.mono {l l' : List Event} (h : PasswordProof l) (hl : ∀ e ∈ l, e ∈ l') :
    PasswordProof l' := by
  obtain ⟨slots, offered, hmem, haccepted⟩ := h
  exact ⟨slots, offered, hl _ hmem, haccepted⟩

lemma KeyProof.mono {l l' : List Event} (h : KeyProof C sessionId l) (hl : ∀ e ∈ l, e ∈ l') :
    KeyProof C sessionId l' := by
  obtain ⟨sig, user, pkBlob, pk, slots, hsig, hverify, hpk, hauth, hlisted⟩ := h
  exact ⟨sig, user, pkBlob, pk, slots, hl _ hsig, hverify, hpk, hl _ hauth, hlisted⟩

end Logging

variable {env : Env} {start : Session} {v : View}

section Phases

lemma SessionSafe.add (h : SessionSafe env start v) (he : Allowed env.crypto v.log e) :
    SessionSafe env start (v.add e) where
  log := h.log.add he
  marked hplain hkey := by
    rcases h.marked hplain hkey with hstart | ⟨user, hmem⟩
    · exact .inl hstart
    · exact .inr ⟨user, mem_append_left _ hmem⟩

/-- The keys are in place: whatever is accepted carries a tag. -/
structure Locked (env : Env) (start : Session) (v : View) (since : List Event) : Prop where
  safe : SessionSafe env start v
  encrypted : v.encryptedC2s = true
  keyed : Sealed env.crypto v.log v.sessionId v.keyC2s since

def Entered (env : Env) (start : Session) (v : View) : Prop :=
  ∃ since, Locked env start v since ∧ (PasswordProof since ∨ KeyProof env.crypto v.sessionId since)

lemma Locked.add (h : Locked env start v since) (htag : e.Tagged env.crypto v.keyC2s)
    (he : Allowed env.crypto v.log e) : Locked env start (v.add e) (since ++ [e]) :=
  ⟨h.safe.add he, h.encrypted, h.keyed.add htag⟩

lemma Entered.add (h : Entered env start v) (htag : e.Tagged env.crypto v.keyC2s)
    (he : Allowed env.crypto v.log e) : Entered env start (v.add e) := by
  obtain ⟨since, hlocked, hproof⟩ := h
  refine ⟨since ++ [e], hlocked.add htag he, ?_⟩
  rcases hproof with hproof | hproof
  · exact .inl (hproof.mono fun _ hf => mem_append_left _ hf)
  · exact .inr (hproof.mono fun _ hf => mem_append_left _ hf)

end Phases

/-! ## Receiving -/

lemma ends_bind_same {α β : Type} {x : Prog α} {f : α → Prog β} {s : State} {Q : β → State → Prop}
    {E : Halt → State → Prop} (hv : s.view = v) [hx : Frames Same x]
    (hf : ∀ a s', s'.view = v → Ends (f a) s' Q E)
    (herr : ∀ e s', s'.view = v → E e s' := by exact fun _ _ h => h) : Ends (x >>= f) s Q E := by
  apply Ends.bind
  have hfinal : (final x s).view = v := (hx.within s).trans hv
  exact (Ends.of_final hfinal).mono hf herr

/-- A packet that may be accepted in a view: under the keys its tag matches. -/
def Acceptable (C : Crypto) (v : View) (e : Event) : Prop :=
  ∃ encrypted seq body tag, e = .packet encrypted seq body tag ∧
    (v.encryptedC2s = true → e.Tagged C v.keyC2s)

section Receiving

variable {s : State}

lemma deliver_ends (hv : s.view = v) (packetLen : Nat) (plain : List UInt8) (e : Event) :
    Ends (deliver env packetLen plain e) s (fun _ s' => s'.view = v.add e)
    fun _ s' => s'.view = v := by
  refine ends_bind_same hv fun _ s1 h1 => ?_
  refine ends_bind_same h1 fun _ s2 h2 => ?_
  refine ends_bind_same h2 fun t s3 h3 => ?_
  rw [← h3]
  rfl

lemma recvPacket_ends (hv : s.view = v) :
    Ends (recvPacket env) s (fun _ s' => ∃ e, Acceptable env.crypto v e ∧ s'.view = v.add e)
      fun _ s' => s'.view = v := by
  refine ends_bind_same hv fun lenBuf s1 h1 => ?_
  apply Ends.get_bind
  cases henc : s1.encryptedC2s with
  | true =>
    apply Ends.get_bind
    refine ends_bind_same h1 fun _ s2 h2 => ?_
    refine ends_bind_same h2 fun _ s3 h3 => ?_
    refine ends_bind_same h3 fun rest s4 h4 => ?_
    dsimp only
    split
    · rename_i htag
      refine (deliver_ends h4 _ _ _).post fun _ s' h' => ?_
      refine ⟨_, ⟨true, _, _, _, rfl, fun _ => ⟨rfl, ?_⟩⟩, h'⟩
      rw [← h1]
      exact htag
    · refine ends_bind_same h4 fun _ s5 h5 => ?_
      exact .throw h5
  | false =>
    refine ends_bind_same h1 fun _ s2 h2 => ?_
    refine ends_bind_same h2 fun _ s3 h3 => ?_
    refine ends_bind_same h3 fun body s4 h4 => ?_
    refine (deliver_ends h4 _ _ _).post fun _ s' h' => ?_
    refine ⟨_, ⟨false, _, _, _, rfl, ?_⟩, h'⟩
    intro hv'
    rw [← h1] at hv'
    rw [show s1.encryptedC2s = true from hv'] at henc
    cases henc

lemma Acceptable.allowed {l : List Event} (h : Acceptable env.crypto v e) :
    Allowed env.crypto l e := by
  obtain ⟨encrypted, seq, body, tag, rfl, -⟩ := h
  trivial

/-- A property that survives the packets that may be accepted survives receiving one. -/
lemma keep_recvPacket {J : View → Prop}
    (hJ : ∀ v e, J v → Acceptable env.crypto v e → J (v.add e)) :
    Frames (Keep J) (recvPacket env) := by
  constructor
  intro s hs
  have hends : Ends (recvPacket env) s
      (fun _ s' => ∃ e, Acceptable env.crypto s.view e ∧ s'.view = s.view.add e)
      fun _ s' => s'.view = s.view :=
    recvPacket_ends rfl
  refine Ends.final (P := fun s' => J s'.view) (hends.mono ?_ ?_)
  · rintro _ s' ⟨e, he, hv⟩
    rw [hv]
    exact hJ _ e hs he
  · intro _ s' hv
    rw [hv]
    exact hs

end Receiving

/-! ## The key exchange -/

structure Opening (env : Env) (start : Session) (v : View) : Prop where
  safe : SessionSafe env start v
  plain : v.encryptedC2s = false

section Exchange

variable {s : State}

instance : Frames (Keep (Opening env start)) (recvPacket env) :=
  keep_recvPacket fun _ _ h he => ⟨h.safe.add he.allowed, h.plain⟩

instance : Frames (Keep (Opening env start)) (recvKexinit env) := by
  unfold recvKexinit
  infer_instance

/-- The session with its keys derived, waiting for the client to use them. -/
structure Derived (env : Env) (start : Session) (v : View) : Prop where
  opening : Opening env start v
  key : v.keyC2s = deriveKey env.crypto v.k v.h 67 v.sessionId

instance : Frames (Keep (Derived env start)) (recvPacket env) :=
  keep_recvPacket fun _ _ h he => ⟨⟨h.opening.safe.add he.allowed, h.opening.plain⟩, h.key⟩

instance (ephPriv qC : List UInt8) :
    Frames (Keep (Opening env start)) (modify (exchange env.crypto ephPriv qC) : Prog PUnit) :=
  ⟨fun _ h => ⟨⟨h.safe.log, h.safe.marked⟩, h.plain⟩⟩

lemma ends_bind_keep {α β : Type} {x : Prog α} {f : α → Prog β} {J : View → Prop}
    {Q : β → State → Prop} {E : Halt → State → Prop} (hs : J s.view) [hx : Frames (Keep J) x]
    (hf : ∀ a s', J s'.view → Ends (f a) s' Q E) (herr : ∀ e s', J s'.view → E e s' := by
      first | exact fun _ _ h => h | exact fun _ _ h => h.safe) :
    Ends (x >>= f) s Q E := by
  exact (Ends.of_final (hx.within s hs)).call hf herr

lemma finish_ends (h : Derived env start s.view) :
    Succeeds (do
        let s ← get
        modify fun s => { s with encryptedC2s := true }
        record (.keys s.k s.h s.sessionId s.keyC2s) : Prog PUnit) s
      fun _ s' => ∃ since, Locked env start s'.view since := by
  have hsafe : SessionSafe env start (s.view.add (.keys s.k s.h s.sessionId s.keyC2s)) :=
    h.opening.safe.add trivial
  refine ⟨[], ⟨hsafe.log, hsafe.marked⟩, rfl, ⟨⟨s.log, s.k, s.h, rfl, h.key⟩, ?_⟩⟩
  intro e he
  cases he

lemma doKexEcdh_ends (h : Opening env start s.view) :
    Ends (doKexEcdh env) s (fun _ s' => ∃ since, Locked env start s'.view since)
      fun _ s' => SessionSafe env start s'.view := by
  refine ends_bind_keep h fun p s1 h1 => ?_
  refine ends_bind_keep h1 fun _ s2 h2 => ?_
  refine ends_bind_keep h2 fun _ s3 h3 => ?_
  refine ends_bind_keep h3 fun t s4 h4 => ?_
  refine ends_bind_keep h4 fun _ s5 h5 => ?_
  apply Ends.get_bind
  refine ends_bind_keep h5 fun _ s6 h6 => ?_
  refine ends_bind_keep h6 fun _ s7 h7 => ?_
  refine ends_bind_keep h7 fun _ s8 h8 => ?_
  apply Ends.modify_bind
  have hderived : Derived env start (deriveKeys env.crypto s8).view :=
    ⟨⟨⟨h8.safe.log, h8.safe.marked⟩, h8.plain⟩, rfl⟩
  refine ends_bind_keep hderived (fun p' s9 h9 => ?_) fun _ _ h' => h'.opening.safe
  refine ends_bind_keep h9 (fun _ s10 h10 => ?_) fun _ _ h' => h'.opening.safe
  exact (finish_ends h10).mono (fun _ _ h' => h') fun _ _ h' => h'.elim

end Exchange

/-! ## Authentication -/

/-- What a round of the authentication loop leaves behind. -/
def Round (env : Env) (start : Session) (done : Bool) (v : View) : Prop :=
  (∃ since, Locked env start v since) ∧ (done = true → Entered env start v)

abbrev Rounds (env : Env) (start : Session) (x : Prog Bool) (s : State) : Prop :=
  Ends x s (fun done s' => Round env start done s'.view) fun _ s' => SessionSafe env start s'.view

section Authentication

variable {s : State}

lemma Entered.round (h : Entered env start v) (done : Bool) : Round env start done v := by
  obtain ⟨since, hlocked, hproof⟩ := h
  exact ⟨⟨since, hlocked⟩, fun _ => ⟨since, hlocked, hproof⟩⟩

variable (h : Locked env start s.view since)
include h

lemma Locked.bind {α β : Type} {x : Prog α} {f : α → Prog β} {Q : β → State → Prop} [Frames Same x]
    (hf : ∀ a s', Locked env start s'.view since → Ends (f a) s' Q
      fun _ s' => SessionSafe env start s'.view) :
    Ends (x >>= f) s Q fun _ s' => SessionSafe env start s'.view :=
  ends_bind_same rfl (fun a s' hv => hf a s' (hv ▸ h)) fun _ _ hv => hv ▸ h.safe

lemma refuse_ends : Rounds env start (refuse env) s :=
  h.bind fun _ _ h' => ⟨⟨since, h'⟩, nofun⟩

lemma accept_ends {method : AuthMethod}
    (hproof : PasswordProof since ∨ KeyProof env.crypto s.view.sessionId since)
    (hkey : method = .key → KeyProof env.crypto s.view.sessionId since) :
    Rounds env start (accept env method) s := by
  apply Ends.get_bind
  apply Ends.modify_bind
  apply Ends.modify_bind
  have hadd : Entered env start (s.view.add (.begin s.user method)) :=
    Entered.add ⟨since, h, hproof⟩ trivial fun hm => ⟨_, _, since, h.keyed, hkey hm⟩
  have hentered : Entered env start
      { s.view.add (.begin s.user method) with session := sessionBegin s.user method } := by
    obtain ⟨since', hlocked, hproof'⟩ := hadd
    refine ⟨since', ⟨⟨hlocked.safe.log, ?_⟩, hlocked.encrypted, hlocked.keyed⟩, hproof'⟩
    intro _ hmark
    rw [sessionBegin_isKeyAuthenticated] at hmark
    rw [of_decide_eq_true hmark]
    exact .inr ⟨s.user, mem_concat_self⟩
  have hview :
    ∀ v, v = { s.view.add (.begin s.user method) with session := sessionBegin s.user method } →
      Entered env start v := fun v hv => hv ▸ hentered
  refine ends_bind_same rfl (fun _ s' hv => (hview s'.view hv).round true) ?_
  intro _ s' hv
  obtain ⟨_, hlocked, -⟩ := hview s'.view hv
  exact hlocked.safe

lemma passwordAuth_ends (p : Slice) (off : UInt32) :
    Rounds env start (passwordAuth env p off) s := by
  refine .failIf_bind (fun _ => h.safe) fun _ => ?_
  refine .orThrow_bind (fun _ => h.safe) fun ⟨pw, _⟩ _ => ?_
  refine (checkPassword_ends s).call ?_ fun _ s' hv => hv ▸ h.safe
  rintro ok s' ⟨hv, haccepted⟩
  have hlocked : Locked env start (s'.view.add (.password s.kernel.slots pw.bytes ok))
      (since ++ [.password s.kernel.slots pw.bytes ok]) := by
    rw [hv]
    exact h.add trivial trivial
  cases ok with
  | false => exact refuse_ends hlocked
  | true =>
    refine accept_ends hlocked (.inl ⟨s.kernel.slots, pw.bytes, ?_, haccepted rfl⟩) ?_
    · exact mem_concat_self
    · intro hmethod
      cases hmethod

structure Verified (C : Crypto) (sessionId pk : List UInt8) (l : List Event) : Prop where
  proof : ∃ sig user pkBlob,
    let msg := signedData sessionId user (ascii "ssh-ed25519") pkBlob
    .signature sig msg pk true ∈ l ∧ C.ed25519Verify sig msg pk = true ∧
    pk = (pkBlob.drop 19).take 32

lemma authorize_ends {pk : List UInt8} (hverified : Verified env.crypto s.view.sessionId pk since) :
    Rounds env start (authorize env pk) s := by
  refine (checkAuthorized_ends s pk).call ?_ fun _ s' hv => hv ▸ h.safe
  rintro ok s' ⟨hv, hlisted⟩
  have hlocked : Locked env start (s'.view.add (.authorized s.kernel.slots pk ok))
      (since ++ [.authorized s.kernel.slots pk ok]) := by
    rw [hv]
    exact h.add trivial trivial
  cases ok with
  | false => exact refuse_ends hlocked
  | true =>
    have hproof :
        KeyProof env.crypto s'.view.sessionId (since ++ [.authorized s.kernel.slots pk true]) := by
      obtain ⟨sig, user, pkBlob, hsig, hverify, hpk⟩ := hverified.proof
      rw [hv]
      refine ⟨sig, user, pkBlob, pk, s.kernel.slots, mem_append_left _ hsig, hverify, hpk, ?_,
        hlisted rfl⟩
      exact mem_concat_self
    exact accept_ends hlocked (.inr hproof) fun _ => hproof

lemma signatureAuth_ends {p user algo pkBlob pk : Slice} (off : UInt32)
    (halgo : algo.bytes = ascii "ssh-ed25519") (hpk : parseBlob pkBlob 32 = some pk) :
    Rounds env start (signatureAuth env p off user algo pkBlob pk) s := by
  refine .orThrow_bind (fun _ => h.safe) fun ⟨sigBlob, _⟩ _ => ?_
  dsimp only
  split
  · exact refuse_ends h
  · rename_i sig _
    refine h.bind fun _ s1 h1 => h1.bind fun _ s2 h2 => ?_
    apply Ends.get_bind
    have hlocked : ∀ ok, Locked env start
        (s2.view.add (.signature sig.bytes
          (signedData s2.sessionId user.bytes algo.bytes pkBlob.bytes) pk.bytes ok))
        (since ++ [.signature sig.bytes
            (signedData s2.sessionId user.bytes algo.bytes pkBlob.bytes) pk.bytes ok]) := by
      intro ok
      exact h2.add trivial trivial
    split
    · rename_i hok
      rw [hok]
      refine authorize_ends (hlocked true) ⟨sig.bytes, user.bytes, pkBlob.bytes, ?_, ?_, ?_⟩
      · rw [← halgo]
        exact mem_concat_self
      · rw [← halgo]
        exact hok
      · exact parseBlob_spec hpk (by decide)
    · exact refuse_ends (hlocked _)

lemma pkOk_ends (algo pkBlob : Slice) : Rounds env start (pkOk env algo pkBlob) s := by
  unfold pkOk
  split
  · exact h.bind fun _ _ h' => ⟨⟨since, h'⟩, nofun⟩
  · exact h.bind fun _ _ h1 => h1.bind fun _ _ h' => ⟨⟨since, h'⟩, nofun⟩

lemma publickeyAuth_ends (p : Slice) (off : UInt32) (user : Slice) :
    Rounds env start (publickeyAuth env p off user) s := by
  refine .failIf_bind (fun _ => h.safe) fun _ => ?_
  refine .orThrow_bind (fun _ => h.safe) fun ⟨algo, off'⟩ _ => ?_
  refine .orThrow_bind (fun _ => h.safe) fun ⟨pkBlob, off''⟩ _ => ?_
  dsimp only
  split
  · rename_i halgo
    split
    · exact refuse_ends h
    · rename_i pk hpk
      split
      · exact pkOk_ends h algo pkBlob
      · exact signatureAuth_ends h off'' (bytes_of_strEq halgo) hpk
  · exact refuse_ends h

omit h in
lemma Locked.acceptable (h : Locked env start v since) (he : Acceptable env.crypto v e) :
    Locked env start (v.add e) (since ++ [e]) := by
  obtain ⟨encrypted, seq, body, tag, rfl, htag⟩ := id he
  exact h.add (htag h.encrypted) trivial

instance : Frames (Keep fun v => ∃ since, Locked env start v since) (recvPacket env) :=
  keep_recvPacket fun _ e ⟨since, h⟩ he => ⟨since ++ [e], h.acceptable he⟩

lemma authRound_ends : Rounds env start (authRound env) s := by
  refine ends_bind_keep (J := fun v => ∃ since, Locked env start v since) ⟨since, h⟩
    (fun p s1 ⟨since1, h1⟩ => ?_) fun _ _ ⟨_, h'⟩ => h'.safe
  refine .failIf_bind (fun _ => h1.safe) fun _ => ?_
  refine .orThrow_bind (fun _ => h1.safe) fun ⟨user, off⟩ _ => ?_
  refine .orThrow_bind (fun _ => h1.safe) fun ⟨_, off'⟩ _ => ?_
  refine .orThrow_bind (fun _ => h1.safe) fun ⟨method, off''⟩ _ => ?_
  refine h1.bind fun _ s2 h2 => ?_
  split
  · exact refuse_ends h2
  · split
    · exact passwordAuth_ends h2 p off''
    · split
      · exact publickeyAuth_ends h2 p off'' user
      · exact refuse_ends h2

lemma authLoop_ends (fuel : Nat) :
    Ends (authLoop env fuel) s (fun _ s' => Entered env start s'.view)
      fun _ s' => SessionSafe env start s'.view := by
  induction fuel generalizing s since with
  | zero => exact h.safe
  | succ n ih =>
    refine (authRound_ends h).next ?_
    rintro done s' ⟨⟨since', h'⟩, hdone⟩
    cases done with
    | true => exact hdone rfl
    | false => exact ih h'

instance : Frames (Keep fun v => ∃ since, Locked env start v since) (serviceRequest env) := by
  unfold serviceRequest sendServiceAccept
  infer_instance

end Authentication

/-! ## Commands -/

section Commands

instance : Frames (Keep (Entered env start)) (recvPacket env) := by
  apply keep_recvPacket
  intro v e h he
  obtain ⟨encrypted, seq, body, tag, rfl, htag⟩ := he
  obtain ⟨since, hlocked, -⟩ := id h
  exact h.add (htag hlocked.encrypted) trivial

set_option synthInstance.maxSize 100000 in
/-- A client that has proved who it is may run commands. -/
instance (cmd : CString) : Frames (Keep (Entered env start)) (execAndSend env cmd) := by
  have hexecute : Frames (Keep (Entered env start)) (record (.execute cmd)) := by
    constructor
    intro s h
    obtain ⟨since, hlocked, hproof⟩ := id h
    exact h.add trivial ⟨_, _, since, hlocked.keyed, hproof⟩
  have hshell (t : Nat) : Frames (Keep (Entered env start))
      (modify fun s => { s with kernel := env.shell t cmd s.kernel } : Prog PUnit) := by
    constructor
    rintro s ⟨since, hlocked, hproof⟩
    refine ⟨since, ⟨⟨hlocked.safe.log, ?_⟩, hlocked.encrypted, hlocked.keyed⟩, hproof⟩
    intro hplain hmark
    exact hlocked.safe.marked hplain (hplain t cmd s.kernel hmark)
  unfold execAndSend
  infer_instance

end Commands

/-! ## The session -/

section Main

variable {s : State}

lemma runSession_ends (h : Opening env start s.view) (fuel : Nat) :
    Leaves (runSession env fuel) s fun s' => SessionSafe env start s'.view := by
  refine ends_bind_keep h fun _ s1 h1 => ?_
  refine ends_bind_keep h1 fun _ s2 h2 => ?_
  refine ends_bind_keep h2 fun _ s3 h3 => ?_
  refine ends_bind_keep h3 fun _ s4 h4 => ?_
  refine ends_bind_keep h4 fun _ s5 h5 => ?_
  refine ends_bind_keep h5 fun _ s6 h6 => ?_
  refine .next (doKexEcdh_ends h6) fun _ s7 h7 => ?_
  apply Ends.bind
  refine ends_bind_keep (J := fun v => ∃ since, Locked env start v since) h7
    (fun _ s8 ⟨since, h8⟩ => ?_) fun _ _ ⟨_, h'⟩ => h'.safe
  refine (authLoop_ends h8 fuel).post fun _ s9 h9 => ?_
  have hsafe : ∀ (e : Halt) (s' : State), Entered env start s'.view →
      SessionSafe env start s'.view :=
    fun _ s' ⟨_, h', _⟩ => h'.safe
  refine ends_bind_keep h9 (fun r s' h' => ?_) hsafe
  have hleave : Frames (Keep (Entered env start)) (leave env r) := inferInstance
  exact (Ends.of_final (hleave.within s' h')).mono (fun _ => hsafe .fault) hsafe

/-- **No SSH command runs before authentication**, whatever bytes a client sends, and the kernel's
session is marked as authenticated by a key only for a signature that verified. -/
theorem ssh_commands_authenticated (env : Env) (kernel : Credential.State) (user : CString)
    (input : List UInt8) :
    SessionSafe env kernel.session (handleSession env kernel user input).view := by
  have hopening : Opening env kernel.session (State.initial kernel user input).view := by
    refine ⟨⟨?_, fun _ => .inl⟩, rfl⟩
    intro before e after hlog
    exact absurd hlog (by simp [State.view, State.initial])
  have hends := runSession_ends hopening (input.length + 1)
  exact hends.final

end Main

end Anunix.Sshd
