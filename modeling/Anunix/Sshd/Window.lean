import Anunix.Sshd.Sessions

/-!
# Flow control of a channel

What a client was sent stays within the window it opened and the adjustments it made, and
`sshd_send_channel_data` hands over its data whole or, when it fails, the beginning of it
(`channel_flow_respected`); every session keeps this account of its channel (`handleSession_opens`).
The pieces fit the client's packet size if that is at least 192: a smaller one is raised to 256 when
the channel is opened, of which 64 are kept for the headers (`small_packets_overrun`).
-/

namespace Anunix.Sshd

open Fallible List

variable {env : Env}

/-- Pieces of channel data went out one after the other, none longer than `size` or than the window
that was left. -/
inductive Sent (env : Env) (size : Nat) : State → List (List UInt8) → State → Prop
  | done {s s'} (hsame : SameFlow s s') : Sent env size s [] s'
  | next {s s₁ s₂ s' chunk rest} (hfits : chunk.length ≤ size)
      (hroom : chunk.length ≤ s.clientWindow.toNat) (hsame : SameFlow s s₁)
      (hsend : sendPacket env ([94] ++ putU32 s.clientChannel ++ bufString chunk) s₁ = .ok ⟨⟩ s₂)
      (hrest : Sent env size
        { s₂ with clientWindow := s₂.clientWindow - UInt32.ofNat chunk.length } rest s') :
      Sent env size s (chunk :: rest) s'

/-- A channel in a session: the packet size that the client advertised, what it granted and what it
was sent. Whatever else the session does leaves the window alone, which is `Sent` without a
piece. -/
inductive Flow : UInt32 → State → Nat → Nat → Prop
  | opened (p : Slice) (off : UInt32) (s : State) :
      Flow (getU32 p.mem (off + 8).toNat) (setChannel p off s)
      (getU32 p.mem (off + 4).toNat).toNat 0
  | adjusted {advertised s granted sent} (h : Flow advertised s granted sent) (n : UInt32) :
      Flow advertised { s with clientWindow := s.clientWindow + n } (granted + n.toNat) sent
  | data {advertised s s' granted sent env size pieces} (h : Flow advertised s granted sent)
      (hsent : Sent env size s pieces s') :
      Flow advertised s' granted (sent + pieces.flatten.length)

variable {s s' : State} {pieces : List (List UInt8)} {advertised : UInt32} {granted sent size : Nat}

lemma Sent.spends (h : Sent env size s pieces s') : s'.clientMaxPacket = s.clientMaxPacket ∧
    pieces.flatten.length + s'.clientWindow.toNat = s.clientWindow.toNat := by
  induction h with
  | done hsame => exact ⟨hsame.2, by rw [hsame.1]; simp⟩
  | @next s s₁ s₂ s' chunk rest _ hroom hsame hsend hrest ih =>
    have hpacket : SameFlow s₁ s₂ := final_of_ok hsend ▸ Frames.within s₁
    obtain ⟨hwindow, hsize⟩ := trans_of SameFlow hsame hpacket
    have hchunk : (UInt32.ofNat chunk.length).toNat = chunk.length :=
      Nat.mod_eq_of_lt (Nat.lt_of_le_of_lt hroom (UInt32.toNat_lt _))
    obtain ⟨hmax, hrest⟩ := ih
    rw [UInt32.toNat_sub_of_le _ _
      (UInt32.le_iff_toNat_le.mpr (by rw [hchunk, hwindow]; exact hroom)), hchunk, hwindow] at hrest
    rw [flatten_cons, length_append]
    exact ⟨hmax.trans hsize, by omega⟩

lemma Flow.bound (h : Flow advertised s granted sent) :
    s.clientMaxPacket = max 256 (min maxPacket advertised) ∧
    sent + s.clientWindow.toNat ≤ granted := by
  induction h with
  | opened => exact ⟨rfl, Nat.le_of_eq (Nat.zero_add _)⟩
  | @adjusted _ s _ _ _ n ih =>
    have hadd : (s.clientWindow + n).toNat ≤ s.clientWindow.toNat + n.toNat := by
      rw [UInt32.toNat_add]
      exact Nat.mod_le _ _
    refine ⟨ih.1, ?_⟩
    dsimp only
    omega
  | data _ hsent ih =>
    obtain ⟨hsize, hwindow⟩ := hsent.spends
    exact ⟨hsize.trans ih.1, by omega⟩

lemma chunkSize_le (s : State) (n : Nat) : chunkSize s n ≤ n ∧
    chunkSize s n ≤ (s.clientMaxPacket - 64).toNat ∧ chunkSize s n ≤ s.clientWindow.toNat := by
  unfold chunkSize
  omega

lemma sendChannelData_ends {n : Nat} {data : List UInt8} (hn : data.length ≤ n)
    (hsize : (s.clientMaxPacket - 64).toNat ≤ size) : Ends (sendChannelData env n data) s
      (fun _ s' => ∃ pieces, Sent env size s pieces s' ∧ pieces.flatten = data)
      fun _ s' => ∃ pieces, Sent env size s pieces s' ∧ pieces.flatten <+: data := by
  induction n generalizing s data with
  | zero => exact ⟨[], .done ⟨rfl, rfl⟩, (length_eq_zero_iff.mp (Nat.le_zero.mp hn)).symm⟩
  | succ n ih =>
    cases data with
    | nil => exact ⟨[], .done ⟨rfl, rfl⟩, rfl⟩
    | cons b rest =>
      have hstop : ∀ s', SameFlow s s' → ∃ pieces, Sent env size s pieces s' ∧
          pieces.flatten <+: b :: rest :=
        fun s' hsame => ⟨[], .done hsame, nil_prefix⟩
      unfold sendChannelData
      apply Ends.get_bind
      obtain ⟨hle, hfits, hroom⟩ := chunkSize_le s (b :: rest).length
      generalize chunkSize s (b :: rest).length = chunk at hle hfits hroom ⊢
      generalize b :: rest = data at *
      refine .failIf_bind (fun _ => hstop s ⟨rfl, rfl⟩) fun hpos => ?_
      have hpos : chunk ≠ 0 := of_decide_eq_false hpos
      refine .call (.of_within Frames.within (fun _ s₁ _ h => h) fun _ s₁ h => h) ?_ fun _ => hstop
      intro _ s₁ hsame
      refine .bind (.of_within (R := SameFlow) Frames.within (fun _ s₂ hsend hpacket =>
        ?_) fun _ s₂ hpacket => ?_)
      · have hflow := trans_of SameFlow hsame hpacket
        have hlen : (data.take chunk).length = chunk := length_take_of_le hle
        rw [← hlen] at hfits hroom
        have hnext : ∀ rest s', _ → Sent env size s (data.take chunk :: rest) s' :=
          fun rest s' => .next (hfits.trans hsize) hroom hsame hsend
        rw [hlen] at hnext
        apply Ends.modify_bind
        refine (ih (by rw [length_drop]; omega) (hflow.2 ▸ hsize)).mono ?_ ?_
        · rintro _ s' ⟨pieces, hsent, hwhole⟩
          exact ⟨_, hnext _ _ hsent, by rw [flatten_cons, hwhole, take_append_drop]⟩
        · rintro _ s' ⟨pieces, hsent, hpre⟩
          have hmore := (prefix_append_right_inj (data.take chunk)).mpr hpre
          rw [take_append_drop] at hmore
          exact ⟨_, hnext _ _ hsent, hmore⟩
      · exact hstop s₂ (trans_of SameFlow hsame hpacket)

lemma packetSize_le (h : 192 ≤ advertised) :
    (max 256 (min maxPacket advertised) - 64).toNat ≤ advertised.toNat := by
  have hnat : 192 ≤ advertised.toNat := UInt32.le_iff_toNat_le.mp h
  have hmax : (max 256 (min maxPacket advertised)).toNat = max 256 (min 32768 advertised.toNat) :=
    (UInt32.toNat_max ..).trans (congrArg (max 256) (UInt32.toNat_min ..))
  have h64 : (64 : UInt32).toNat = 64 := rfl
  rw [UInt32.toNat_sub, hmax]
  omega

/-- Channel data goes out in pieces that the client takes, within the window it granted. -/
theorem channel_flow_respected {advertised : UInt32} {s : State} {granted sent : Nat} (env : Env)
    (data : List UInt8) (h : Flow advertised s granted sent) (hsize : 192 ≤ advertised) :
    Ends (sendData env data) s
      (fun _ s' => ∃ pieces, Sent env advertised.toNat s pieces s' ∧ pieces.flatten = data ∧
        sent + pieces.flatten.length ≤ granted)
      fun _ s' => ∃ pieces, Sent env advertised.toNat s pieces s' ∧ pieces.flatten <+: data ∧
        sent + pieces.flatten.length ≤ granted := by
  obtain ⟨hmax, hwindow⟩ := h.bound
  refine (sendChannelData_ends (Nat.le_refl _) (hmax ▸ packetSize_le hsize)).mono ?_ ?_
  all_goals
    rintro _ s' ⟨pieces, hsent, hpieces⟩
    have hspent := hsent.spends.2
    exact ⟨pieces, hsent, hpieces, by omega⟩

/-! ## The channel of a session -/

/-- A channel was opened, and its window is what is left of the grants. -/
def Flows (s : State) : Prop :=
  ∃ advertised granted sent, Flow advertised s granted sent

lemma Flows.same (h : Flows s) (hsame : SameFlow s s') : Flows s' := by
  obtain ⟨advertised, granted, sent, hflow⟩ := h
  exact ⟨advertised, granted, _, hflow.data (show Sent plainEnv 0 s [] s' from .done hsame)⟩

def KeepsFlow (s s' : State) : Prop :=
  Flows s → Flows s'

/-- The window is as before, or a channel has been opened since. -/
def Opens (s s' : State) : Prop :=
  SameFlow s s' ∨ Flows s'

instance : Logs KeepsFlow where
  refl _ h := h
  trans _ _ _ h h' hs := h' (h hs)
  of_same _ _ _ h hs := hs.same h.flow
  event _ _ _ _ hs := hs.same ⟨rfl, rfl⟩

instance : Early Opens where
  refl _ := .inl ⟨rfl, rfl⟩
  trans _ _ _ h h' := by
    rcases h' with hsame | hflows
    · exact h.imp (trans_of SameFlow · hsame) (·.same hsame)
    · exact .inr hflows
  of_same _ _ _ h := .inl h.flow
  event _ _ _ _ := .inl ⟨rfl, rfl⟩
  mark _ _ _ := .inl ⟨rfl, rfl⟩
  keys _ _ _ _ h := .inl h.flow

section Channel

set_option synthInstance.maxSize 10000

variable {α : Type}

instance : Frames KeepsFlow (giveUp : Prog α) :=
  ⟨fun _ hs => hs.same ⟨rfl, rfl⟩⟩

instance : Frames Opens (giveUp : Prog α) :=
  ⟨fun _ => .inl ⟨rfl, rfl⟩⟩

instance (data : List UInt8) : Frames KeepsFlow (sendData env data) := by
  constructor
  rintro s ⟨advertised, granted, sent, hflow⟩
  apply Ends.final (P := Flows)
  refine (sendChannelData_ends (Nat.le_refl _) (Nat.le_refl _)).mono ?_ ?_
  all_goals
    rintro _ s' ⟨pieces, hsent, -⟩
    exact ⟨advertised, granted, _, hflow.data hsent⟩

instance (cmd : CString) : Frames KeepsFlow (execAndSend env cmd) := by
  have hexecute : Frames KeepsFlow (record (.execute cmd)) := ⟨fun _ hs => hs.same ⟨rfl, rfl⟩⟩
  have hshell (t : Nat) : Frames KeepsFlow
      (modify fun s => { s with kernel := env.shell t cmd s.kernel } : Prog PUnit) :=
    ⟨fun _ hs => hs.same ⟨rfl, rfl⟩⟩
  unfold execAndSend
  infer_instance

instance (n : UInt32) :
    Frames KeepsFlow (modify fun s => { s with clientWindow := s.clientWindow + n } : Prog PUnit) :=
  ⟨fun _ ⟨advertised, _, sent, hflow⟩ => ⟨advertised, _, sent, hflow.adjusted n⟩⟩

lemma openChannel_ends (p : Slice) (s : State) :
    Ends (openChannel env p) s (fun _ s' => Flows s') fun _ s' => Opens s s' := by
  refine .guard fun _ => .fetch fun ⟨kind, off⟩ _ => ?_
  dsimp only
  split
  · refine .guard fun _ => .modify_bind ?_
    have hsend (payload : List UInt8) : Frames KeepsFlow (sendPacket env payload) := inferInstance
    refine Ends.get_bind
      ((Ends.of_final ((hsend _).within _ ⟨_, _, _, .opened p off s⟩)).mono ?_ ?_)
    · exact fun _ _ h => h
    · exact fun _ _ h => .inr h
  · have hsend (payload : List UInt8) : Frames Opens (ignore (sendPacket env payload)) :=
      inferInstance
    exact .bind (.of_within (hsend _).within (fun _ _ _ h => h) fun _ _ h => h)

instance (fuel : Nat) : Frames Opens (doConnection env fuel) := by
  unfold doConnection connectionService sendServiceAccept
  refine ⟨.bind Frames.within fun _ => .bind Frames.within fun _ => .bind Frames.within
    fun p => fun s => ?_⟩
  refine Ends.final (P := Opens s)
    (.bind ((openChannel_ends p s).mono (fun _ s' h => ?_) fun _ _ h => h))
  have hrounds : Frames KeepsFlow (channelRounds env fuel) := inferInstance
  exact (Ends.of_final (hrounds.within s' h)).mono (fun _ _ h => .inr h) fun _ _ h => .inr h

/-- When a session is over, no channel was opened in it, or what was sent on it is within the
grants. -/
lemma handleSession_opens (env : Env) (kernel : Credential.State) (user : CString)
    (input : List UInt8) :
    Opens (State.initial kernel user input) (handleSession env kernel user input) := by
  have hrun : Frames Opens (runSession env (input.length + 1)) := by
    unfold runSession
    infer_instance
  exact hrun.within _

end Channel

def openFields (maxPacket : UInt8) : Slice where
  mem i := [0, 0, 0, 0, 0, 0, 16, 0, 0, 0, 0, maxPacket].getD i 0
  len := 12

def openedState (maxPacket : UInt8) : State :=
  setChannel (openFields maxPacket) 0 (State.initial freshMachine.kernel freshMachine.user [])

/-- To a client that takes packets of 250 bytes, 300 bytes go out in pieces of that size. -/
theorem channel_flow_respected_250 : Leaves (sendData plainEnv (replicate 300 7)) (openedState 250)
    fun s' => ∃ pieces, Sent plainEnv 250 (openedState 250) pieces s' := by
  have hsize : (getU32 (openFields 250).mem 8).toNat = 250 := by decide +kernel
  refine (channel_flow_respected plainEnv _ (.opened (openFields 250) 0 _) (by decide +kernel)).mono
    ?_ ?_
  all_goals
    rintro _ s' ⟨pieces, hsent, -⟩
    exact ⟨pieces, hsize ▸ hsent⟩

/-- To a client that takes packets of 100 bytes, 150 bytes go out in one. -/
theorem small_packets_overrun : getU32 (openFields 100).mem 8 = 100 ∧
    outcome (sendData plainEnv (replicate 150 7)) (openedState 100) = .ok ⟨⟩ ∧
    (final (sendData plainEnv (replicate 150 7)) (openedState 100)).output.map (fun pkt =>
      (pkt.drop 14).take 150) = [replicate 150 7] := by
  decide +kernel

end Anunix.Sshd
