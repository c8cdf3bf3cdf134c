import Anunix.Wifi.Authentic

/-!
# Frames that do not authenticate

A frame without a valid MIC under the current PTK is dropped, and the supplicant does with every
later frame what it would have done (`unauthentic_frame_harmless`). Message 1 is the exception: it
replaces the PTK before anything was authenticated, so that the access point's next frame is refused
(`message1_disturbs`).
-/

namespace Anunix.Wifi
open List

variable {P : Prims} {rand : Nat → UInt8} {e : Eapol} {pkt : List UInt8}

/-- No MIC that verifies under the current PTK. -/
def Unauthentic (P : Prims) (e : Eapol) (pkt : List UInt8) : Prop :=
  hasInfo pkt kiMic = false ∨ verifyMic P e.ptk pkt = false

instance : Decidable (Unauthentic P e pkt) := by
  unfold Unauthentic
  infer_instance

/-- The answer to a message 1 leaves the keys of the session as they are. -/
def Repeats (P : Prims) (rand : Nat → UInt8) (e : Eapol) (pkt : List UInt8) : Prop :=
  e.nextPtk P rand pkt = e.ptk ∧ nonceOf pkt = e.anonce

lemma eapolRx_ignores (rand : Nat → UInt8) (hmic : Unauthentic P e pkt)
    (hfirst : ¬ Answered e pkt) :
    ∃ why, eapolRx P rand e pkt = ({ e with lastError := why }, .ignore) := by
  unfold eapolRx
  dsimp only
  split
  · exact ⟨_, rfl⟩
  next hformed =>
  split
  · exact ⟨_, rfl⟩
  next hversion =>
  split
  · exact ⟨_, rfl⟩
  next hack =>
  split
  · exact ⟨_, rfl⟩
  next hfresh =>
  split
  · next hone =>
    exact absurd ⟨eq_false_of_ne_true hformed, not_not.mp hversion, eq_true_of_ne_false hack,
      eq_true_of_ne_false hfresh, hone⟩ hfirst
  split
  · exact ⟨_, rfl⟩
  · exact ⟨_, if_pos hmic⟩

/-- The SNonce only matters to the answer of a message 1. -/
lemma eapolRx_snonce {snonce : List UInt8} (hfirst : ¬ IsMessage1 pkt) :
    (eapolRx P rand { e with snonce, lastError := .none } pkt).2 = (eapolRx P rand e pkt).2 := by
  have hfirst' : ¬ (hasInfo pkt kiPairwise = true ∧ hasInfo pkt kiMic = false) := hfirst
  have hthird : (message3 P { e with snonce, lastError := .none } pkt).2 =
      (message3 P { e with lastError := .none } pkt).2 := by
    simp only [message3, Eapol.advance, Eapol.drop, apply_ite Prod.snd]
    cases unwrapKeyData P e.ptk pkt <;> rfl
  have hgroup : (groupMessage1 P { e with snonce, lastError := .none } pkt).2 =
      (groupMessage1 P { e with lastError := .none } pkt).2 := by
    simp only [groupMessage1, Eapol.advance, Eapol.drop, apply_ite Prod.snd]
    cases unwrapKeyData P e.ptk pkt <;> rfl
  simp only [eapolRx, if_neg hfirst', apply_ite Prod.snd, hthird, hgroup]
  rfl

section Message3

/-- A message 3 without key data; `mid` is the replay counter, the nonce and the fields up to the
MIC. -/
def bareMessage3 (mid mic : List UInt8) : List UInt8 :=
  [1, 3, 0, 95, 2, 1, 0xca, 0, 0] ++ mid ++ mic ++ [0, 0]

lemma info_bareMessage3 (mid mic : List UInt8) : info (bareMessage3 mid mic) = 0x01ca := by
  show (1 : UInt8).toUInt16 <<< 8 ||| (0xca : UInt8).toUInt16 = 0x01ca
  decide

lemma frameLen_bareMessage3 (mid mic : List UInt8) : frameLen (bareMessage3 mid mic) = 99 := by
  show 4 + ((0 : UInt8).toUInt16 <<< 8 ||| (95 : UInt8).toUInt16).toNat = 99
  decide

variable {mid mic : List UInt8} (hmid : mid.length = 72) (hmic : mic.length = 16)
include hmid hmic

lemma malformed_bareMessage3 : malformed (bareMessage3 mid mic) = false := by
  have hlen : ([1, 3, 0, 95, 2, 1, 0xca, 0, 0] ++ mid ++ mic).length = offKdLen := by
    simp [hmid, hmic, offKdLen]
  have hkd : kdLen (bareMessage3 mid mic) = 0 := by
    rw [kdLen, be16, bareMessage3, getD_append_right _ _ _ _ (Nat.le_of_eq hlen),
      getD_append_right _ _ _ _ (by omega), hlen, Nat.sub_self, Nat.add_sub_cancel_left]
    rfl
  have hall : (bareMessage3 mid mic).length = 99 := by
    rw [bareMessage3, length_append, hlen]
    rfl
  have htype : (bareMessage3 mid mic).getD offType 0 = 3 := rfl
  have hdesc : (bareMessage3 mid mic).getD offDesc 0 = 2 := rfl
  simp only [malformed, hall, hkd, frameLen_bareMessage3, htype, hdesc]
  rfl

lemma verifyMic_bareMessage3 (ptk : List UInt8)
    (h : computeMic P (kck ptk) (bareMessage3 mid (replicate 16 0)) = mic) :
    verifyMic P ptk (bareMessage3 mid mic) = true := by
  have hhead : ([1, 3, 0, 95, 2, 1, 0xca, 0, 0] ++ mid).length = offMic := by simp [hmid, offMic]
  have hunsigned : unsigned (bareMessage3 mid mic) = bareMessage3 mid (replicate 16 0) := by
    have htake : (bareMessage3 mid mic).take offMic = [1, 3, 0, 95, 2, 1, 0xca, 0, 0] ++ mid := by
      rw [bareMessage3, append_assoc _ mic, take_left' hhead]
    have hdrop : (bareMessage3 mid mic).drop offKdLen = [0, 0] :=
      drop_left' (by simp [hmid, hmic, offKdLen])
    rw [unsigned, htake, frameLen_bareMessage3,
      take_of_length_le (by simp [bareMessage3, hmid, hmic]), hdrop]
    rfl
  have hfield : micOf (bareMessage3 mid mic) = mic := by
    rw [micOf, field, bareMessage3, append_assoc _ mic, drop_left' hhead, take_left' hmic]
  exact decide_eq_true ⟨by rw [frameLen_bareMessage3]; decide, by rw [hunsigned, h, hfield]⟩

end Message3

/-- There is a message 3 with a MIC under the PTK, for any replay counter and nonce. -/
lemma exists_message3 (ptk : List UInt8) {replay nonce : List UInt8} (hreplay : replay.length = 8)
    (hnonce : nonce.length = 32) :
    ∃ m, malformed m = false ∧ info m = 0x01ca ∧ replayOf m = replay ∧
      nonceOf m = nonce ∧ verifyMic P ptk m = true := by
  have hmid : (replay ++ (nonce ++ replicate 32 0)).length = 72 := by simp [hreplay, hnonce]
  generalize hmic : computeMic P (kck ptk)
    (bareMessage3 (replay ++ (nonce ++ replicate 32 0)) (replicate 16 0)) = mic
  have hlen : mic.length = 16 := by simp [← hmic, computeMic, P.length_hmacSha1]
  refine ⟨bareMessage3 (replay ++ (nonce ++ replicate 32 0)) mic, malformed_bareMessage3 hmid hlen,
    info_bareMessage3 _ _, ?_, ?_, verifyMic_bareMessage3 hmid hlen ptk hmic⟩
  · simp [replayOf, field, bareMessage3, offReplay, hreplay]
  · simp [nonceOf, field, bareMessage3, offNonce, hreplay, hnonce]

lemma eapolRx_message3 (rand : Nat → UInt8) {m : List UInt8} (hformed : malformed m = false)
    (hinfo : info m = 0x01ca) (hfresh : replayOk e m = true) (hvalid : e.ptkValid = true)
    (hmic : verifyMic P e.ptk m = true) :
    (eapolRx P rand e m).2.installPtk = decide (bytesCmp e.anonce (nonceOf m) = 0) := by
  have hfresh' : replayOk { e with ptkValid := true, lastError := .none } m = true := hfresh
  have hbits : info m &&& kiVersionMask = kiVersionAesSha1 ∧ hasInfo m kiAck = true ∧
      hasInfo m kiPairwise = true ∧ hasInfo m kiMic = true ∧ hasInfo m kiInstall = true ∧
      hasInfo m kiEncKeyData = false := by
    simp only [hasInfo, hinfo]
    decide
  obtain ⟨hversion, hack, hpair, hflag, hinstall, henc⟩ := hbits
  have hrx : eapolRx P rand e m = message3 P { e with lastError := .none } m := by
    simp only [eapolRx, hformed, hversion, hack, hfresh', hpair, hflag, hvalid, hmic]
    rfl
  rw [hrx, message3, hinstall, henc]
  by_cases h : bytesCmp e.anonce (nonceOf m) = 0 <;> simp [h, Eapol.drop, Action.ignore]

/-- **An unauthentic frame changes nothing** in a session, exactly if it is no message 1 that is
answered with another key. -/
theorem unauthentic_frame_harmless (P : Prims) (rand : Nat → UInt8) (e : Eapol) (pkt : List UInt8)
    (hvalid : e.ptkValid = true) (hanonce : e.anonce.length = 32) (hmic : Unauthentic P e pkt) :
    ((eapolRx P rand e pkt).1.ptk = e.ptk ∧ (eapolRx P rand e pkt).1.ptkValid = e.ptkValid ∧
      ∀ later : Arrival, (eapolRx P later.rand e later.pkt).2.Installs →
        (eapolRx P later.rand (eapolRx P rand e pkt).1 later.pkt).2 =
        (eapolRx P later.rand e later.pkt).2) ↔
    (Answered e pkt → Repeats P rand e pkt) := by
  by_cases hans : Answered e pkt
  · rw [eapolRx_of_answered rand hans]
    constructor
    · rintro ⟨hptk, -, hlater⟩ -
      refine ⟨hptk, bytesCmp_eq_zero ((length_nonceOf hans.formed).trans hanonce.symm) ?_⟩
      -- a message 3 with the old nonce would have been accepted
      obtain ⟨m, hformed, hinfo, hreplay, hnonce, hver⟩ :=
        exists_message3 (P := P) e.ptk (length_replayOf hans.formed) hanonce
      have hfresh : replayOk e m = true := by
        rw [replayOk, hreplay]
        exact hans.fresh
      have hold := eapolRx_message3 rand hformed hinfo hfresh hvalid hver
      have hnew :=
        eapolRx_message3 (e := (message1 P rand { e with lastError := .none } pkt).1) rand hformed
        hinfo hfresh rfl (by rwa [hptk])
      rw [hnonce, bytesCmp_self] at hold
      rw [hlater ⟨m, rand⟩ (.inl hold), hold, hnonce] at hnew
      exact of_decide_eq_true hnew.symm
    · intro h
      obtain ⟨hptk, hnonce⟩ := h hans
      refine ⟨hptk, hvalid.symm, fun later hinst => ?_⟩
      obtain ⟨-, hfirst, -⟩ := (eapolRx_outcome P later.rand e later.pkt).of_installs hinst
      have hsame : (message1 P rand { e with lastError := .none } pkt).1 =
          { e with
            anonce := nonceOf pkt
            snonce := if e.fixedSnonce then e.snonce else (range 32).map rand
            ptk := e.nextPtk P rand pkt, ptkValid := true, lastError := .none } := rfl
      rw [hsame, hptk, hnonce, ← hvalid]
      exact eapolRx_snonce hfirst
  · obtain ⟨why, hrx⟩ := eapolRx_ignores rand hmic hans
    rw [hrx]
    -- the reason of the last drop is the only difference, and every call starts by clearing it
    exact iff_of_true ⟨rfl, rfl, fun _ _ => rfl⟩ fun h => absurd h hans

/-! ## An established session -/

def sumPrims : Prims :=
  { plainPrims with
    hmacSha1 := fun key data => replicate 20 ((key ++ data).foldl (· + ·) 0)
    length_hmacSha1 := fun _ _ => length_replicate }

def sharedPtk : List UInt8 :=
  derivePtk sumPrims plainStart.pmk plainStart.aa plainStart.spa (nonceOf helloFrame.pkt)
    (replicate 32 9)

def signedFrame (info : UInt16) (counter : UInt8) (kd : List UInt8) : List UInt8 :=
  let pkt := apFrame info counter kd
  pkt.take offMic ++ computeMic sumPrims (kck sharedPtk) (unsigned pkt) ++ pkt.drop offKdLen

def handshake : Supplicant :=
  .after sumPrims plainStart [helloFrame, ⟨signedFrame 0x13ca 2 (gtkData 7), fun _ => 9⟩]

def rekeyFrame : List UInt8 := signedFrame 0x1382 9 (gtkData 8)

def forgedFrame : List UInt8 := (apFrame 0x008a 3 []).set offNonce 6

/-- Behind a forged group message the rekey of the access point is installed. -/
theorem unauthentic_frame_harmless_group :
    (eapolRx sumPrims (fun _ => 1)
      (eapolRx sumPrims (fun _ => 1) handshake.eapol (apFrame 0x1382 3 [])).1
      rekeyFrame).2.Installs := by
  have hinst : (eapolRx sumPrims (fun _ => 1) handshake.eapol rekeyFrame).2.Installs := by
    decide +kernel
  have hno : ¬ Answered handshake.eapol (apFrame 0x1382 3 []) := by decide +kernel
  obtain ⟨-, -, hlater⟩ := (unauthentic_frame_harmless sumPrims (fun _ => 1) handshake.eapol
    (apFrame 0x1382 3 []) (by decide +kernel) (by decide +kernel) (by decide +kernel)).mpr
    fun h => absurd h hno
  rw [hlater ⟨rekeyFrame, fun _ => 1⟩ hinst]
  exact hinst

/-- Behind a forged message 1 the rekey of the access point is ignored. -/
theorem message1_disturbs : handshake.log.map (fun x => x.2.installPtk) = [false, true] ∧
    Unauthentic sumPrims handshake.eapol forgedFrame ∧
    (eapolRx sumPrims (fun _ => 1) handshake.eapol forgedFrame).1.ptk ≠ handshake.eapol.ptk ∧
    (eapolRx sumPrims (fun _ => 1) handshake.eapol rekeyFrame).2.installGtk = true ∧
    (eapolRx sumPrims (fun _ => 1)
      (eapolRx sumPrims (fun _ => 1) handshake.eapol forgedFrame).1 rekeyFrame).2 = .ignore := by
  decide +kernel

end Anunix.Wifi
