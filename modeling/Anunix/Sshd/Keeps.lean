import Anunix.Sshd.Session

/-!
# What the functions of a session leave alone

The properties of a session are about its log, the keys it receives under and the kernel's current
session: its `View`. Most functions of a session touch none of these, so they stay within every
relation that only looks at the view (`Coarse`). A property of the view that survives receiving a
packet and running a command survives the whole connection phase (`keep_connection`). Every round of
a loop takes bytes of the client, so no loop comes to its bound (`handleSession_bounded`).
-/

namespace Anunix.Sshd

open Fallible Auth

structure View where
  log : List Event
  encryptedC2s : Bool
  k : List UInt8
  h : List UInt8
  keyC2s : List UInt8
  sessionId : List UInt8
  session : Session

def State.view (s : State) : View where
  log := s.log
  encryptedC2s := s.encryptedC2s
  k := s.k
  h := s.h
  keyC2s := s.keyC2s
  sessionId := s.sessionId
  session := s.kernel.session

def Same (s s' : State) : Prop :=
  s'.view = s.view

def Keep (J : View → Prop) (s s' : State) : Prop :=
  J s.view → J s'.view

def SameFlow (s s' : State) : Prop :=
  s'.clientWindow = s.clientWindow ∧ s'.clientMaxPacket = s.clientMaxPacket

/-- What counts of a session beside its view; bytes may have been taken from the client. -/
structure SameRest (s s' : State) : Prop where
  exhausted : s'.exhausted = s.exhausted
  input : s'.input.length ≤ s.input.length
  flow : SameFlow s s'

/-- A preorder that relates states which agree in all that counts. -/
class Coarse (R : State → State → Prop) : Prop extends IsPreorder State R where
  of_same : ∀ s s', s'.view = s.view → SameRest s s' → R s s'

/-- A preorder that does not look at the window of the channel. -/
class Unpaced (R : State → State → Prop) : Prop extends Coarse R where
  of_unpaced : ∀ s s', s'.view = s.view → s'.exhausted = s.exhausted →
    s'.input.length ≤ s.input.length → R s s'

/-- A preorder that looks at the view only. -/
class ViewOnly (R : State → State → Prop) : Prop extends Unpaced R where
  of_view : ∀ s s', s'.view = s.view → R s s'

instance : ViewOnly Same where
  refl _ := rfl
  trans _ _ _ h h' := Eq.trans h' h
  of_same _ _ h _ := h
  of_unpaced _ _ h _ _ := h
  of_view _ _ h := h

instance (J : View → Prop) : ViewOnly (Keep J) where
  refl _ h := h
  trans _ _ _ h h' hs := h' (h hs)
  of_same _ _ h _ hs := h ▸ hs
  of_unpaced _ _ h _ _ hs := h ▸ hs
  of_view _ _ h hs := h ▸ hs

instance : Coarse SameFlow where
  refl _ := ⟨rfl, rfl⟩
  trans _ _ _ h h' := ⟨h'.1.trans h.1, h'.2.trans h.2⟩
  of_same _ _ _ h := h.flow

section Formers

variable {R : State → State → Prop} {α : Type}

instance {x : Prog α} [h : Frames R x] : Frames R (ignore x) := by
  constructor
  intro s
  have hs := h.within s
  cases hx : x s with
  | ok a s' => simpa [final, ignore, hx] using hs
  | error e s' =>
    cases e <;> simpa [final, ignore, hx] using hs

instance [Coarse R] (user : State → CString) (output : State → List (List UInt8))
    (tick : State → Nat) (hostPub hostPriv vClient vServer iClient iServer : State → List UInt8)
    (ephPriv ephPub keyS2c line : State → List UInt8)
    (haveSessionId encryptedS2c channelOpen sentChannelClose : State → Bool)
    (seqC2s seqS2c clientChannel : State → UInt32) :
    Frames R (modify fun s => { s with
      user := user s, output := output s, tick := tick s
      hostPub := hostPub s, hostPriv := hostPriv s
      vClient := vClient s, vServer := vServer s, iClient := iClient s, iServer := iServer s
      ephPriv := ephPriv s, ephPub := ephPub s, keyS2c := keyS2c s, line := line s
      haveSessionId := haveSessionId s, encryptedS2c := encryptedS2c s, channelOpen := channelOpen s
      sentChannelClose := sentChannelClose s, seqC2s := seqC2s s, seqS2c := seqS2c s
      clientChannel := clientChannel s } : Prog PUnit) :=
  ⟨fun s => Coarse.of_same s _ rfl ⟨rfl, le_rfl, rfl, rfl⟩⟩

instance [Unpaced R] (channelOpen : State → Bool)
    (clientChannel clientWindow clientMaxPacket : State → UInt32) :
    Frames R (modify fun s => { s with
      channelOpen := channelOpen s, clientChannel := clientChannel s, clientWindow := clientWindow s
      clientMaxPacket := clientMaxPacket s } : Prog PUnit) :=
  ⟨fun s => Unpaced.of_unpaced s _ rfl rfl le_rfl⟩

instance [ViewOnly R] : Frames R (giveUp : Prog α) :=
  ⟨fun s => ViewOnly.of_view s _ rfl⟩

end Formers

/-! ## Calls into the credential store -/

section Credentials

open Credential

variable {r : Around} {name : CString}

/-- Calls into the store do not change the current session. -/
abbrev SameSession (k k' : Credential.State) : Prop :=
  k'.session = k.session

instance : IsPreorder Credential.State SameSession where
  refl _ := rfl
  trans _ _ _ h h' := Eq.trans h' h

/-- A call into the credential store that leaves the current session alone. -/
instance {R : State → State → Prop} [Coarse R] {α : Type} {x : Credential.Prog α}
    [h : Frames SameSession x] : Frames R (kern x) := by
  constructor
  intro s
  have hs := h.within s.kernel
  have hview : (final (kern x) s).view = s.view := by
    cases hx : x s.kernel <;> simpa [State.view, final, kern, hx] using hs
  apply Coarse.of_same _ _ hview
  cases hx : x s.kernel <;> simp only [final, kern, hx] <;> exact ⟨rfl, le_rfl, rfl, rfl⟩

instance (n : Nat) (e : Option Entry) :
    Frames SameSession (modify fun s => s.setSlot n e : Credential.Prog PUnit) :=
  ⟨fun _ => rfl⟩

lemma save_session (k : Credential.State) : (save r k).session = k.session := by
  unfold save
  split <;> rfl

instance : Frames SameSession (modify (save r) : Credential.Prog PUnit) :=
  ⟨save_session⟩

instance : Frames SameSession (exists_ name) := by
  unfold exists_
  infer_instance

instance (bufLen : Nat) : Frames SameSession (readSystem r name bufLen) := by
  unfold readSystem
  infer_instance

set_option synthInstance.maxSize 10000 in
instance (credType : CredType) (secret : List UInt8) :
    Frames SameSession (create r name credType secret) := by
  unfold create
  infer_instance

instance : Frames SameSession (revoke r name) := by
  unfold revoke
  infer_instance

end Credentials

/-! ## Functions that leave the view alone -/

section Same

variable {R : State → State → Prop} [Coarse R] (env : Env)

instance : Frames R ask := by
  unfold ask
  infer_instance

instance : Frames R (allocate env) := by
  unfold allocate
  infer_instance

instance (bytes : List UInt8) : Frames R (tcpSend env bytes) := by
  have hanswer (t : Nat) : Frames R (match env.send t with
      | none => pure PUnit.unit
      | some e => throw (Halt.code e) : Prog PUnit) := by
    cases env.send t <;> infer_instance
  unfold tcpSend
  infer_instance

instance (n : Nat) : Frames R (tcpRecvExact env n) := by
  have hdrop : Frames R (modify fun s => { s with input := s.input.drop n } : Prog PUnit) :=
    ⟨fun s => Coarse.of_same s _ rfl ⟨rfl, (List.drop_sublist n _).length_le, rfl, rfl⟩⟩
  unfold tcpRecvExact
  infer_instance

instance (payload : List UInt8) : Frames R (sendPacket env payload) := by
  unfold sendPacket
  infer_instance

instance (reason : UInt32) (desc : String) : Frames R (sendDisconnect env reason desc) := by
  unfold sendDisconnect
  infer_instance

instance : Frames R (createHostKey env) := by
  unfold createHostKey
  infer_instance

instance (r : Except Halt (List UInt8 × Nat)) : Frames R (useHostKey env r) := by
  unfold useHostKey
  split <;> infer_instance

instance : Frames R (ensureHostKey env) := by
  unfold ensureHostKey
  infer_instance

instance : Frames R (sendVersion env) := by
  unfold sendVersion
  infer_instance

instance (n : Nat) (line : List UInt8) : Frames R (recvLine env n line) := by
  induction n generalizing line with
  | zero => exact inferInstanceAs (Frames R (pure line))
  | succ n ih =>
    unfold recvLine
    infer_instance

instance (n : Nat) : Frames R (recvVersion env n) := by
  induction n with
  | zero => exact inferInstanceAs (Frames R (throw _))
  | succ n ih =>
    unfold recvVersion
    infer_instance

instance : Frames R (sendKexinit env) := by
  unfold sendKexinit
  infer_instance

instance : Frames R (refuse env) := by
  unfold refuse
  infer_instance

instance (pw : Slice) : Frames R (checkPassword env pw) := by
  unfold checkPassword
  infer_instance

instance (pk : List UInt8) : Frames R (checkAuthorized env pk) := by
  unfold checkAuthorized
  infer_instance

instance (algo pkBlob : Slice) : Frames R (pkOk env algo pkBlob) := by
  unfold pkOk
  infer_instance

instance (user : Slice) : Frames R (noteUser user) := by
  unfold noteUser
  infer_instance

instance (msg : UInt8) : Frames R (sendChannelMessage env msg) := by
  unfold sendChannelMessage
  infer_instance

instance (r : Except Halt PUnit) : Frames R (leave env r) := by
  unfold leave
  split <;> infer_instance

end Same

section Unpaced

set_option synthInstance.maxSize 10000

variable {R : State → State → Prop} [Unpaced R] (env : Env)

instance (n : Nat) (data : List UInt8) : Frames R (sendChannelData env n data) := by
  induction n generalizing data with
  | zero => exact inferInstanceAs (Frames R (pure _))
  | succ n ih =>
    cases data with
    | nil => exact inferInstanceAs (Frames R (pure _))
    | cons c data =>
      unfold sendChannelData
      infer_instance

instance (data : List UInt8) : Frames R (sendData env data) := by
  unfold sendData
  infer_instance

instance (p : Slice) : Frames R (openChannel env p) := by
  unfold openChannel setChannel
  infer_instance

end Unpaced

/-! ## Key exchange and authentication -/

/-- A property of the log and the kernel's session that survives the events logged up to the end of
the authentication and the marks set there. -/
class Unmoved (J : List Event → Session → Prop) : Prop where
  event : ∀ log session e, (∀ cmd, e ≠ .execute cmd) → (∀ user method, e ≠ .begin user method) →
    J log session → J (log ++ [e]) session
  mark : ∀ log session user method, J log session →
    J (log ++ [.begin user method]) (sessionBegin user method)

/-- A property of the log and the kernel's session, as one of the view. -/
abbrev onLog (J : List Event → Session → Prop) (v : View) : Prop :=
  J v.log v.session

/-- A preorder that allows the events logged up to the end of the authentication, but for its
marks. -/
class Logs (R : State → State → Prop) : Prop extends Coarse R where
  event : ∀ s e, (∀ cmd, e ≠ .execute cmd) → (∀ user method, e ≠ .begin user method) →
    R s { s with log := s.log ++ [e] }

/-- A preorder that allows these marks and a change of keys as well. -/
class Early (R : State → State → Prop) : Prop extends Logs R where
  mark : ∀ s user method, R s { s with
    log := s.log ++ [.begin user method], kernel.session := sessionBegin user method }
  keys : ∀ s s', s'.log = s.log → s'.kernel = s.kernel → SameRest s s' → R s s'

instance {J : List Event → Session → Prop} [hJ : Unmoved J] : Early (Keep (onLog J)) where
  event _ _ hexec hbegin := hJ.event _ _ _ hexec hbegin
  mark _ user method := hJ.mark _ _ user method
  keys s s' hlog hkernel _ hs := by
    show J s'.log s'.kernel.session
    rw [hlog, hkernel]
    exact hs

instance : Early SameFlow where
  event _ _ _ _ := ⟨rfl, rfl⟩
  mark _ _ _ := ⟨rfl, rfl⟩
  keys _ _ _ _ h := h.flow

section Phases

set_option synthInstance.maxSize 10000

variable {env : Env} {R : State → State → Prop}

section Logs

variable [Logs R]

instance (encrypted : Bool) (seq : UInt32) (body tag : List UInt8) :
    Frames R (record (.packet encrypted seq body tag)) :=
  ⟨fun s => Logs.event s _ nofun nofun⟩

instance (k h sessionId key : List UInt8) : Frames R (record (.keys k h sessionId key)) :=
  ⟨fun s => Logs.event s _ nofun nofun⟩

instance (slots : List (Option Credential.Entry)) (offered : List UInt8) (ok : Bool) :
    Frames R (record (.password slots offered ok)) :=
  ⟨fun s => Logs.event s _ nofun nofun⟩

instance (sig msg pk : List UInt8) (ok : Bool) : Frames R (record (.signature sig msg pk ok)) :=
  ⟨fun s => Logs.event s _ nofun nofun⟩

instance (slots : List (Option Credential.Entry)) (pk : List UInt8) (ok : Bool) :
    Frames R (record (.authorized slots pk ok)) :=
  ⟨fun s => Logs.event s _ nofun nofun⟩

instance (packetLen : Nat) (plain : List UInt8) (encrypted : Bool) (seq : UInt32)
    (body tag : List UInt8) :
    Frames R (deliver env packetLen plain (.packet encrypted seq body tag)) := by
  unfold deliver
  infer_instance

instance (encLen : List UInt8) : Frames R (recvEncrypted env encLen) := by
  unfold recvEncrypted
  infer_instance

instance (lenBuf : List UInt8) : Frames R (recvPlain env lenBuf) := by
  unfold recvPlain
  infer_instance

instance : Frames R (recvPacket env) := by
  unfold recvPacket
  infer_instance

instance : Frames R (recvKexinit env) := by
  unfold recvKexinit
  infer_instance

instance : Frames R (serviceRequest env) := by
  unfold serviceRequest sendServiceAccept
  infer_instance

end Logs

variable [hR : Early R]

instance : Frames R (doKexEcdh env) := by
  have hkeys (g : State → State) (h : ∀ s, (g s).log = s.log ∧ (g s).kernel = s.kernel ∧
    SameRest s (g s)) :
      Frames R (modify g : Prog PUnit) := ⟨fun s => hR.keys s _ (h s).1 (h s).2.1 (h s).2.2⟩
  have hexchange (ephPriv qC : List UInt8) := hkeys (exchange env.crypto ephPriv qC)
    fun s => ⟨rfl, rfl, rfl, le_rfl, rfl, rfl⟩
  have hderive := hkeys (deriveKeys env.crypto) fun s => ⟨rfl, rfl, rfl, le_rfl, rfl, rfl⟩
  have hnewkeys := hkeys (fun s => { s with encryptedC2s := true })
    fun s => ⟨rfl, rfl, rfl, le_rfl, rfl, rfl⟩
  unfold doKexEcdh
  infer_instance

instance (method : AuthMethod) : Frames R (accept env method) := by
  have hsend : Frames R (do sendPacket env [52]; pure true : Prog Bool) := inferInstance
  exact ⟨fun s => trans_of R (hR.mark s s.user method) (hsend.within _)⟩

instance (p : Slice) (off : UInt32) (user algo pkBlob pk : Slice) :
    Frames R (signatureAuth env p off user algo pkBlob pk) := by
  constructor
  refine .bind (.orThrow _ _) fun ⟨sigBlob, _⟩ => ?_
  dsimp only
  split
  · exact Frames.within
  · unfold authorize
    exact Frames.within

instance (p : Slice) (off : UInt32) : Frames R (passwordAuth env p off) := by
  unfold passwordAuth
  infer_instance

instance (p : Slice) (off : UInt32) (user : Slice) : Frames R (publickeyAuth env p off user) := by
  constructor
  refine .bind (.failIf _ _) fun _ => ?_
  refine .bind (.orThrow _ _) fun ⟨algo, off⟩ => ?_
  refine .bind (.orThrow _ _) fun ⟨pkBlob, off⟩ => ?_
  dsimp only
  cases parseBlob pkBlob 32 <;> exact Frames.within

instance (fuel : Nat) [Frames R (giveUp : Prog PUnit)] : Frames R (authLoop env fuel) := by
  induction fuel with
  | zero => exact inferInstanceAs (Frames R giveUp)
  | succ n ih =>
    unfold authLoop authRound
    infer_instance

instance (fuel : Nat) [Frames R (authLoop env fuel)] : Frames R (doServiceAndAuth env fuel) := by
  unfold doServiceAndAuth
  infer_instance

end Phases

/-! ## The connection phase -/

section Connection

set_option synthInstance.maxSize 10000

variable {env : Env} {R : State → State → Prop} [Coarse R] [∀ data, Frames R (sendData env data)]

instance (c : UInt8) : Frames R (editLine env c) := by
  constructor
  refine .bind (Frames.within) fun t => .bind Within.get fun s => ?_
  split <;> exact Frames.within

variable [∀ cmd, Frames R (execAndSend env cmd)]

instance (c : UInt8) : Frames R (shellByte env c) := by
  unfold shellByte runLine execLine prompt closeShell sendExitStatus
  infer_instance

instance (data : Slice) (n i : Nat) : Frames R (shellData env data n i) := by
  induction n generalizing i with
  | zero => exact inferInstanceAs (Frames R (pure _))
  | succ n ih =>
    unfold shellData
    infer_instance

variable [∀ n : UInt32,
      Frames R (modify fun s => { s with clientWindow := s.clientWindow + n } : Prog PUnit)]

instance (p : Slice) : Frames R (shellMessage env p) := by
  unfold shellMessage
  cases pktGetString p 5 <;> infer_instance

instance (p : Slice) : Frames R (replyGlobal env p) := by
  unfold replyGlobal
  infer_instance

instance (fuel : Nat) (p : Slice) [Frames R (shellRounds env fuel)] :
    Frames R (channelMessage env fuel p) := by
  unfold channelMessage closeChannel answerClose channelRequest execRequest replyIf
    sendExitStatus shellLoop
  infer_instance

variable [Frames R (recvPacket env)]

instance (fuel : Nat) [Frames R (giveUp : Prog PUnit)] : Frames R (shellRounds env fuel) := by
  induction fuel with
  | zero => exact inferInstanceAs (Frames R giveUp)
  | succ n ih =>
    unfold shellRounds
    infer_instance

instance (fuel : Nat) [Frames R (giveUp : Prog PUnit)] : Frames R (channelRounds env fuel) := by
  induction fuel with
  | zero => exact inferInstanceAs (Frames R giveUp)
  | succ n ih =>
    unfold channelRounds
    infer_instance

instance (fuel : Nat) (p : Slice) [Frames R (giveUp : Prog Slice)] :
    Frames R (skipGlobal env fuel p) := by
  induction fuel generalizing p with
  | zero => exact inferInstanceAs (Frames R giveUp)
  | succ n ih =>
    unfold skipGlobal
    infer_instance

/-- A relation that receiving a packet, running a command and the three loops stay within, the
connection phase stays within. -/
instance keep_connection (fuel : Nat) [∀ p, Frames R (skipGlobal env fuel p)]
    [∀ p, Frames R (openChannel env p)] [Frames R (channelRounds env fuel)] :
    Frames R (doConnection env fuel) := by
  unfold doConnection connectionService sendServiceAccept
  infer_instance

end Connection

/-! ## The bounds of the loops

Every round of a loop takes bytes from the client, so a bound above their number is never used
up. -/

/-- A session with less than `n` bytes to come stays one. -/
def Fed (n : Nat) (s s' : State) : Prop :=
  s.exhausted = false → s.input.length < n → s'.exhausted = false ∧ s'.input.length ≤ s.input.length

instance (n : Nat) : Unpaced (Fed n) where
  refl _ h _ := ⟨h, Nat.le_refl _⟩
  trans _ _ _ h h' hs hn := by
    obtain ⟨h1, hle⟩ := h hs hn
    obtain ⟨h2, hle'⟩ := h' h1 (Nat.lt_of_le_of_lt hle hn)
    exact ⟨h2, Nat.le_trans hle' hle⟩
  of_same _ _ _ h hs _ := ⟨h.exhausted.trans hs, h.input⟩
  of_unpaced _ _ _ hsame hinput hs _ := ⟨hsame.trans hs, hinput⟩

instance (n : Nat) : Early (Fed n) where
  event _ _ _ _ hs _ := ⟨hs, Nat.le_refl _⟩
  mark _ _ _ hs _ := ⟨hs, Nat.le_refl _⟩
  keys _ _ _ _ h hs _ := ⟨h.exhausted.trans hs, h.input⟩

section Bounds

set_option synthInstance.maxSize 10000

variable {env : Env} {n : Nat} {α : Type}

instance (cmd : CString) : Frames (Fed n) (execAndSend env cmd) := by
  have hexecute : Frames (Fed n) (record (.execute cmd)) := ⟨fun _ hs _ => ⟨hs, le_rfl⟩⟩
  have hshell (t : Nat) : Frames (Fed n)
      (modify fun s => { s with kernel := env.shell t cmd s.kernel } : Prog PUnit) :=
    ⟨fun _ hs _ => ⟨hs, le_rfl⟩⟩
  unfold execAndSend
  infer_instance

lemma tcpRecvExact_takes (k : Nat) (s : State) : Ends (tcpRecvExact env k) s
      (fun _ s' => s'.exhausted = s.exhausted ∧ s'.input.length + k = s.input.length)
      fun _ s' => s'.exhausted = s.exhausted ∧ s'.input = s.input := by
  refine .bind (?_ : Ends _ { s with tick := s.tick + 1 } _ _)
  refine .get_bind (.failIf_bind (fun _ => ⟨rfl, rfl⟩) fun henough => ⟨rfl, ?_⟩)
  simp only [Bool.or_eq_false_iff, decide_eq_false_iff_not, Nat.not_lt] at henough
  exact (congrArg (· + k) List.length_drop).trans (Nat.sub_add_cancel henough.2)

/-- A round that begins with a packet leaves fewer bytes to the next one. -/
lemma fed_round {f : Slice → Prog α} (hf : ∀ p, Within (Fed n) (f p)) :
    Within (Fed (n + 1)) (do let p ← recvPacket env; f p) := by
  intro s hs hn
  have hrest (lenBuf : List UInt8) : Frames (Fed n) (do
      let s ← get
      if s.encryptedC2s then recvEncrypted env lenBuf else recvPlain env lenBuf) := inferInstance
  unfold recvPacket
  rw [bind_assoc]
  apply Ends.final (P := fun s' : State => s'.exhausted = false ∧ s'.input.length ≤ s.input.length)
  refine .call (tcpRecvExact_takes 4 s) (fun lenBuf s1 ⟨hsame, htaken⟩ => ?_)
    fun _ s1 ⟨hsame, hinput⟩ => ?_
  · obtain ⟨h1, hle⟩ := (hrest lenBuf).within.bind hf s1 (hsame.trans hs) (by omega)
    exact .of_final ⟨h1, Nat.le_trans hle (by omega)⟩
  · exact ⟨hsame.trans hs, by rw [hinput]⟩

lemma fed_zero {x : Prog α} : Frames (Fed 0) x :=
  ⟨fun _ _ hn => absurd hn (Nat.not_lt_zero _)⟩

instance : Frames (Fed n) (authLoop env n) := by
  induction n with
  | zero => exact fed_zero
  | succ n ih =>
    unfold authLoop authRound
    rw [bind_assoc]
    exact ⟨fed_round fun p => Frames.within⟩

instance : Frames (Fed n) (shellRounds env n) := by
  induction n with
  | zero => exact fed_zero
  | succ n ih =>
    refine ⟨.bind .get fun s => ?_⟩
    split
    · exact fed_round fun p => Frames.within
    · exact Frames.within

instance : Frames (Fed n) (channelRounds env n) := by
  induction n with
  | zero => exact fed_zero
  | succ n ih =>
    refine ⟨.bind .get fun s => ?_⟩
    split
    · exact fed_round fun p => Frames.within
    · exact Frames.within

instance (p : Slice) : Frames (Fed n) (skipGlobal env n p) := by
  induction n generalizing p with
  | zero => exact fed_zero
  | succ n ih =>
    unfold skipGlobal
    split
    · exact ⟨.bind Frames.within fun _ => fed_round fun p => Frames.within⟩
    · infer_instance

/-- No loop of a session uses up its bound. -/
lemma handleSession_bounded (env : Env) (kernel : Credential.State) (user : CString)
    (input : List UInt8) : (handleSession env kernel user input).exhausted = false := by
  have hrun : Frames (Fed (input.length + 1)) (runSession env (input.length + 1)) := by
    unfold runSession
    infer_instance
  exact (hrun.within (State.initial kernel user input) rfl (Nat.lt_succ_self _)).1

end Bounds

end Anunix.Sshd
