import Anunix.Credential.Hidden
import Anunix.Sshd.Safe

/-!
# Sessions one after another

A machine serves SSH sessions and calls on the credential store, one at a time. The kernel's current
session is one record for all of them, and `sshd_handle_session` returns without clearing it, so the
mark of a session that authenticated with a key stays behind when its client has gone
(`key_mark_stays`). It does not stay if the client runs the shell's `logout` before it leaves
(`key_mark_ends`).
-/

namespace Anunix.Sshd

open Fallible Auth Credential
open List hiding rotate

/-! ## The machine -/

/-- The kernel state that outlives a session, with the static user name of the server. -/
structure Machine where
  kernel : Credential.State
  user : CString

inductive Step where
  | ssh (env : Env) (input : List UInt8)
  | call (c : Call) (r : Around)

def Machine.step (m : Machine) : Step → Machine
  | .ssh env input =>
    let s := handleSession env m.kernel m.user input
    { kernel := s.kernel, user := s.user }
  | .call c r => { m with kernel := final (c.exec r) m.kernel }

def machineAt (m : Machine) (run : List Step) (n : Nat) : Machine :=
  Run.after Machine.step m run n

/-- The step serves a session that marks the kernel's session as authenticated by a key. -/
def Marks (m : Machine) : Step → Prop
  | .ssh env input => ∃ user, .begin user .key ∈ (handleSession env m.kernel m.user input).log
  | .call _ _ => False

structure Refuses (k : Credential.State) : Prop where
  unmarked : k.session.isKeyAuthenticated = false
  read : ∀ r name bufLen, classOf name = .connectivity →
    outcome (Credential.read r name bufLen) k = .error .eperm
  wipe : ∀ r, outcome (wipeConnectivity r) k = .ok (.error .eperm, 0)

/-- The mark of a session goes with the session: behind it, and until a session marks again,
connectivity secrets are refused. -/
def MarkEnds (m : Machine) (run : List Step) : Prop :=
  ∀ i n st, run[i]? = some st → Marks (machineAt m run i) st → i < n →
    (∀ j st', i < j → j < n → run[j]? = some st' → ¬ Marks (machineAt m run j) st') →
    Refuses (machineAt m run n).kernel

lemma refuses_of_unmarked {k : Credential.State} (h : k.session.isKeyAuthenticated = false) :
    Refuses k := by
  refine ⟨h, ?_, ?_⟩
  · intro r name bufLen hclass
    apply Ends.outcome
    refine .guard fun hpass => ?_
    exact absurd ⟨hclass, h⟩ (of_decide_eq_false hpass)
  · intro r
    apply Ends.outcome
    apply Ends.get_bind
    rw [h]
    rfl

/-! ## Leaving with `logout` -/

def logoutCommand : CString :=
  CString.ofString "logout"

/-- The shell runs `logout` as `anx_auth_logout`, and no command sets a mark. -/
structure ShellLogsOut (env : Env) : Prop where
  plain : ShellPlain env
  logout : ∀ t k, (env.shell t logoutCommand k).session = Auth.logout

def LogsOut (m : Machine) : Step → Prop
  | .ssh env input => ShellLogsOut env ∧
      (Marks m (.ssh env input) →
        .execute logoutCommand ∈ (handleSession env m.kernel m.user input).log)
  | .call _ _ => True

section Session

variable {env : Env} {session : Session} {log : List Event}

/-- Before a command runs, a mark is one this session has set. -/
def Waiting (log : List Event) (session : Session) : Prop :=
  (∀ cmd, .execute cmd ∉ log) ∧ (session.isKeyAuthenticated = true → ∃ user, .begin user .key ∈ log)

/-- A mark that is still there was set by this session, which has not run `logout`. -/
def Standing (log : List Event) (session : Session) : Prop :=
  session.isKeyAuthenticated = true →
    (∃ user, .begin user .key ∈ log) ∧ .execute logoutCommand ∉ log

instance : Unmoved Waiting where
  event log session e hexec _ h := by
    obtain ⟨hnone, hmark⟩ := h
    constructor
    · intro cmd hmem
      exact (mem_append.mp hmem).elim (hnone cmd) fun he => hexec cmd (mem_singleton.mp he).symm
    · intro hkey
      obtain ⟨user, hmem⟩ := hmark hkey
      exact ⟨user, mem_append_left _ hmem⟩
  mark log session user method h := by
    obtain ⟨hnone, -⟩ := h
    constructor
    · intro cmd hmem
      rcases mem_append.mp hmem with hmem | hmem
      · exact hnone cmd hmem
      · cases mem_singleton.mp hmem
    · intro hkey
      rw [sessionBegin_isKeyAuthenticated] at hkey
      rw [of_decide_eq_true hkey]
      exact ⟨user, mem_concat_self⟩

lemma Waiting.standing (h : Waiting log session) :
    Standing log session :=
  fun hkey => ⟨h.2 hkey, h.1 _⟩

lemma Standing.add {e : Event} (h : Standing log session)
    (he : e ≠ .execute logoutCommand) : Standing (log ++ [e]) session := by
  intro hkey
  obtain ⟨⟨user, hbegin⟩, hnone⟩ := h hkey
  refine ⟨⟨user, mem_append_left _ hbegin⟩, ?_⟩
  intro hmem
  rcases mem_append.mp hmem with hmem | hmem
  · exact hnone hmem
  · exact he (mem_singleton.mp hmem).symm

instance : Frames (Keep (onLog Standing)) (recvPacket env) := by
  apply keep_recvPacket
  intro v e h he
  obtain ⟨encrypted, seq, body, tag, rfl, -⟩ := he
  exact h.add fun heq => by cases heq

/-- The call is logged and made together: `logout` clears the mark it is logged against. -/
lemma keep_standing_exec (hshell : ShellLogsOut env) (cmd : CString) :
    Frames (Keep (onLog Standing)) (execAndSend env cmd) := by
  constructor
  refine .bind Frames.within fun _ => .bind Frames.within fun t => ?_
  intro s hs
  apply Ends.final (P := fun s' : State => onLog Standing s'.view)
  apply Ends.get_bind
  apply Ends.modify_bind
  apply Ends.modify_bind
  have hran : Standing (s.log ++ [.execute cmd]) (env.shell t cmd s.kernel).session := by
    rcases Decidable.em (cmd = logoutCommand) with rfl | hne
    · intro hkey
      rw [hshell.logout] at hkey
      cases hkey
    · intro hkey
      apply Standing.add hs _ (hshell.plain t cmd s.kernel hkey)
      intro heq
      cases heq
      exact hne rfl
  refine ends_bind_keep hran fun _ s' h' => ?_
  have hsend bytes : Frames (Keep (onLog Standing)) (sendData env bytes) := inferInstance
  exact .of_final ((hsend _).within s' h')

lemma standing_handleSession (hshell : ShellLogsOut env) {kernel : Credential.State}
    (user : CString) (input : List UInt8) (hstart : kernel.session.isKeyAuthenticated = false) :
    onLog Standing (handleSession env kernel user input).view := by
  have hinit : onLog Waiting (State.initial kernel user input).view := by
    refine ⟨?_, ?_⟩
    · intro cmd hmem
      cases hmem
    · intro hkey
      rw [show (State.initial kernel user input).view.session = kernel.session from rfl,
        hstart] at hkey
      cases hkey
  have herr : ∀ (e : Halt) (s' : State), onLog Waiting s'.view → onLog Standing s'.view :=
    fun _ _ => Waiting.standing
  apply Ends.final (P := fun s' : State => onLog Standing s'.view)
  refine ends_bind_keep hinit (fun _ s1 h1 => ?_) herr
  refine ends_bind_keep h1 (fun _ s2 h2 => ?_) herr
  refine ends_bind_keep h2 (fun _ s3 h3 => ?_) herr
  refine ends_bind_keep h3 (fun _ s4 h4 => ?_) herr
  refine ends_bind_keep h4 (fun _ s5 h5 => ?_) herr
  refine ends_bind_keep h5 (fun _ s6 h6 => ?_) herr
  refine ends_bind_keep h6 (fun _ s7 h7 => ?_) herr
  refine ends_bind_keep h7 (fun _ s8 h8 => ?_) herr
  have hexec := keep_standing_exec hshell
  refine ends_bind_keep (herr .fault s8 h8) fun r s9 h9 => ?_
  have hleave : Frames (Keep (onLog Standing)) (leave env r) := inferInstance
  exact .of_final (hleave.within s9 h9)

end Session

/-! ## Runs -/

section Calls

variable {r : Around} {name : CString}

instance (bufLen : Nat) : Frames SameSession (Credential.read r name bufLen) := by
  unfold Credential.read
  infer_instance

instance : Frames SameSession (Credential.info name) := by
  unfold Credential.info
  infer_instance

instance (secret : List UInt8) : Frames SameSession (rotate r name secret) := by
  unfold rotate
  infer_instance

instance (maxEntries : Nat) : Frames SameSession (Credential.list maxEntries) := by
  unfold Credential.list
  infer_instance

instance : Frames SameSession (wipeConnectivity r) := by
  constructor
  refine .bind Within.get fun s => ?_
  split
  · refine .bind (.modify fun _ => rfl) fun _ => ?_
    refine .bind (.modify fun k => ?_) fun _ => .pure _
    split
    · exact save_session k
    · rfl
  · exact .pure _

lemma session_exec (c : Call) (r : Around) : Within SameSession (c.exec r) := by
  unfold Call.exec
  cases c with
  | _ => exact Frames.within

end Calls

/-- **A mark ends with its session**, if the session runs `logout` before it ends. -/
theorem key_mark_ends {m : Machine} (hstart : m.kernel.session.isKeyAuthenticated = false)
    (run : List Step) (hrun : ∀ n st, run[n]? = some st → LogsOut (machineAt m run n) st) :
    MarkEnds m run := by
  have hunmarked : ∀ n, (machineAt m run n).kernel.session.isKeyAuthenticated = false := by
    refine Run.after_kept Machine.step
      (I := fun m => m.kernel.session.isKeyAuthenticated = false) hstart fun n st hop ih => ?_
    have hout := hrun n st hop
    cases st with
    | call c r =>
      show (final (c.exec r) (machineAt m run n).kernel).session.isKeyAuthenticated = false
      rw [session_exec c r (machineAt m run n).kernel]
      exact ih
    | ssh env input =>
      have hstanding := standing_handleSession hout.1 (machineAt m run n).user input ih
      cases hkey : (handleSession env (machineAt m run n).kernel (machineAt m run n).user
          input).kernel.session.isKeyAuthenticated with
      | false => exact hkey
      | true =>
        obtain ⟨hmarks, hnone⟩ := hstanding hkey
        exact absurd (hout.2 hmarks) hnone
  intro i n st _ _ _ _
  exact refuses_of_unmarked (hunmarked n)

/-! ## A client with a key -/

/-- Primitives that hide nothing and accept every signature. -/
def plainCrypto : Crypto where
  chacha20 _ _ _ data := data
  poly1305 _ _ := replicate 16 0
  sha256 _ := replicate 32 1
  curve25519Base scalar := scalar
  curve25519 _ point := point
  ed25519Keypair seed := (seed, seed ++ seed)
  ed25519Sign _ _ := replicate 64 2
  ed25519Verify _ _ _ := true

def plainShell (cmd : CString) (k : Credential.State) : Credential.State :=
  if cmd = logoutCommand then { k with session := Auth.logout } else k

def plainEnv : Env where
  crypto := plainCrypto
  alloc _ := true
  recv _ := true
  send _ := none
  random _ n := replicate n 5
  beyond _ _ := 0
  around _ := ⟨1, true, true, true⟩
  shell _ := plainShell
  captured _ _ _ := []
  edit _ _ _ := none

lemma plainEnv_logsOut : ShellLogsOut plainEnv where
  plain t cmd k hkey := by
    simp only [plainEnv, plainShell] at hkey
    split at hkey
    · cases hkey
    · exact hkey
  logout t k := by
    simp only [plainEnv, plainShell, if_pos]

def clientPacket (payload : List UInt8) : List UInt8 :=
  putU32 (UInt32.ofNat (payload.length + 9)) ++ [8] ++ payload ++ replicate 8 0

def taggedPacket (payload : List UInt8) : List UInt8 :=
  clientPacket payload ++ replicate 16 0

def clientKey : List UInt8 :=
  buildBlob (replicate 32 6)

def keyClient : List UInt8 :=
  ascii "SSH-2.0-client" ++ [13, 10] ++ clientPacket [20] ++
    clientPacket ([30] ++ bufString (replicate 32 9)) ++ clientPacket [21] ++
    taggedPacket ([5] ++ bufString (ascii "ssh-userauth")) ++
    taggedPacket ([50] ++ bufString (ascii "admin") ++ bufString (ascii "ssh-connection") ++
      bufString (ascii "publickey") ++ [1] ++ bufString (ascii "ssh-ed25519") ++
      bufString clientKey ++ bufString (buildBlob (replicate 64 7)))

def leavingClient : List UInt8 :=
  keyClient ++
    taggedPacket ([90] ++ bufString (ascii "session") ++ putU32 0 ++ putU32 4096 ++ putU32 4096) ++
    taggedPacket
    ([98] ++ putU32 0 ++ bufString (ascii "exec") ++ [1] ++ bufString (ascii "logout")) ++
    taggedPacket ([97] ++ putU32 0)

def marksIn (log : List Event) : Bool :=
  log.any fun e => match e with
    | .begin _ method => method = .key
    | _ => false

def logoutIn (log : List Event) : Bool :=
  log.any fun e => match e with
    | .execute cmd => cmd = logoutCommand
    | _ => false

lemma begin_of_marksIn {log : List Event} (h : marksIn log = true) :
    ∃ user, .begin user .key ∈ log := by
  obtain ⟨e, hmem, he⟩ := any_eq_true.mp h
  cases e with
  | «begin» user method =>
    rw [of_decide_eq_true he] at hmem
    exact ⟨user, hmem⟩
  | _ => cases he

lemma execute_of_logoutIn {log : List Event} (h : logoutIn log = true) :
    .execute logoutCommand ∈ log := by
  obtain ⟨e, hmem, he⟩ := any_eq_true.mp h
  cases e with
  | execute cmd =>
    rw [of_decide_eq_true he] at hmem
    exact hmem
  | _ => cases he

def freshMachine : Machine where
  kernel :=
    { slots := some ⟨CString.ofString "wifi-pass", 4, [1, 2, 3], 7, 0, 0⟩ ::
        replicate (credstoreMax - 1) none
      session := Auth.logout
      disk := none
      buf := fun _ => 0
      loading := false }
  user := Auth.logout.username

/-- The mark of a client that logs out is gone for the calls after it. -/
theorem key_mark_ends_logout :
    MarkEnds freshMachine [.ssh plainEnv leavingClient,
      .call .wipeConnectivity ⟨9, true, true, true⟩] := by
  refine key_mark_ends rfl _ ?_
  intro n st hn
  match n with
  | 0 =>
    cases hn
    exact ⟨plainEnv_logsOut, fun _ => execute_of_logoutIn (by decide +kernel)⟩
  | 1 =>
    cases hn
    trivial
  | n + 2 => cases hn

/-- A client authenticates with its key and hangs up: the mark stays, and the next caller reads the
Wi-Fi password. -/
theorem key_mark_stays : freshMachine.kernel.session.isKeyAuthenticated = false ∧
      ¬ MarkEnds freshMachine [.ssh plainEnv keyClient] ∧
      (outcome (Credential.read ⟨9, true, true, true⟩ (CString.ofString "wifi-pass") 64)
        (machineAt freshMachine [.ssh plainEnv keyClient] 1).kernel).isOk = true := by
  refine ⟨rfl, ?_, by decide +kernel⟩
  intro hends
  have hmarks : Marks freshMachine (.ssh plainEnv keyClient) := begin_of_marksIn (by decide +kernel)
  have hrefuses := hends 0 1 (.ssh plainEnv keyClient) rfl hmarks Nat.zero_lt_one
    fun j st hj hj' => absurd hj (by omega)
  have hmarked :
      (machineAt freshMachine [.ssh plainEnv keyClient] 1).kernel.session.isKeyAuthenticated =
      true := by
    decide +kernel
  rw [hrefuses.unmarked] at hmarked
  cases hmarked

end Anunix.Sshd
