import Anunix.Wifi.Eapol

/-!
# Keys are installed on authentic, fresh frames

Whatever frames reach the supplicant, one that makes it install a key carries a MIC under the PTK of
the last exchange of nonces, and a replay counter above that of every frame that installed a key
before (`keys_installed_authentic`).

What one frame can do is said once, by `Outcome`; the invariant `Held` of a run follows from it.
-/

namespace Anunix.Wifi
open List

/-! ## Bytes and frames -/

variable {pkt : List UInt8} {P : Prims}

section Frames

variable {l m : List UInt8} {off n : Nat} {kd : List UInt8}

/-- `bytes_cmp` compares strings of one length as big-endian numbers. -/
lemma bytesCmp_pos (h : l.length = m.length) :
    0 < bytesCmp l m ↔ BigEndian.value m < BigEndian.value l := by
  induction l generalizing m with
  | nil =>
    cases m with
    | nil => simp [bytesCmp]
    | cons b m => cases h
  | cons a l ih =>
    cases m with
    | nil => cases h
    | cons b m =>
      have hlen : l.length = m.length := Nat.succ.inj h
      by_cases hab : a = b
      · subst hab
        rw [BigEndian.value_cons_lt_cons hlen.symm, ← ih hlen]
        simp [bytesCmp]
      · rcases UInt8.lt_or_lt_of_ne hab with hlt | hgt
        · have hle := BigEndian.value_lt_of_head hlt hlen
          simp only [bytesCmp, ne_eq, hab, not_false_eq_true, if_true, hlt]
          omega
        · have hle := BigEndian.value_lt_of_head hgt hlen.symm
          have hnlt : ¬ a < b := UInt8.lt_asymm hgt
          simp only [bytesCmp, ne_eq, hab, not_false_eq_true, if_true, hnlt, if_false]
          omega

lemma bytesCmp_self (l : List UInt8) : bytesCmp l l = 0 := by
  induction l with
  | nil => rfl
  | cons a l ih => simpa [bytesCmp] using ih

lemma bytesCmp_eq_zero (h : l.length = m.length) (hcmp : bytesCmp l m = 0) : l = m := by
  induction l generalizing m with
  | nil =>
    cases m with
    | nil => rfl
    | cons b m => cases h
  | cons a l ih =>
    cases m with
    | nil => cases h
    | cons b m =>
      unfold bytesCmp at hcmp
      split at hcmp
      · split at hcmp <;> cases hcmp
      · next hab =>
        have heq : a = b := not_not.mp hab
        rw [heq, ih (Nat.succ.inj h) hcmp]

lemma length_field (h : off + n ≤ pkt.length) : (field pkt off n).length = n := by
  rw [field, length_take, length_drop]
  omega

section

variable (h : malformed pkt = false)
include h

lemma length_of_not_malformed : offKd ≤ pkt.length := by
  by_contra hlt
  have hbad : malformed pkt = true := by
    exact decide_eq_true (Or.inl (Nat.lt_of_not_le hlt))
  rw [hbad] at h
  cases h

lemma length_replayOf : (replayOf pkt).length = 8 := by
  apply length_field
  have := length_of_not_malformed h
  simp only [offReplay, offKd] at *
  omega

lemma length_nonceOf : (nonceOf pkt).length = 32 := by
  apply length_field
  have := length_of_not_malformed h
  simp only [offNonce, offKd] at *
  omega

end

lemma nonceOf_buildReply {ptk replay nonce : List UInt8} {info : UInt16}
    (hreplay : replay.length = 8) (hnonce : nonce.length = 32) :
    nonceOf (buildReply P ptk info replay nonce kd) = nonce := by
  unfold buildReply
  generalize computeMic P (kck ptk) _ = mic
  let head := [1, 3] ++ putBe16 (UInt16.ofNat (offKd + kd.length - 4)) ++ [2] ++ putBe16 info ++
    putBe16 0 ++ replay
  let tail := replicate 32 0 ++ mic ++ putBe16 (UInt16.ofNat kd.length) ++ kd
  have hhead : head.length = offNonce := by
    simp [head, putBe16, offNonce, hreplay]
  have hsplit : replyFrame info replay nonce kd mic = head ++ (nonce ++ tail) := by
    simp only [replyFrame, head, tail, append_assoc]
  rw [nonceOf, field, hsplit, drop_left' hhead, take_left' hnonce]

def HoldsGtk (kd : List UInt8) (idx : UInt8) (gtk : List UInt8) : Prop :=
  ∃ before keyId reserved after,
    kd = before ++ [0xdd, UInt8.ofNat (gtk.length + 6), 0x00, 0x0f, 0xac, 1, keyId, reserved] ++
    gtk ++ after ∧ idx = keyId &&& 0x03

lemma HoldsGtk.append {front gtk : List UInt8} {idx : UInt8} (h : HoldsGtk kd idx gtk) :
    HoldsGtk (front ++ kd) idx gtk := by
  obtain ⟨before, keyId, reserved, after, hkd, hidx⟩ := h
  refine ⟨front ++ before, keyId, reserved, after, ?_, hidx⟩
  rw [hkd]
  simp only [append_assoc]

/-- The body of a GTK element: selector, key index, a reserved byte and the key. -/
lemma gtk_body {p : List UInt8} {elen : UInt8} (hsel : p.take 4 = [0x00, 0x0f, 0xac, 1])
    (hlong : 6 ≤ elen.toNat) (hlen : elen.toNat ≤ p.length) :
    p = [0x00, 0x0f, 0xac, 1, p.getD 4 0, p.getD 5 0] ++ (p.drop 6).take (elen.toNat - 6) ++
    p.drop elen.toNat := by
  obtain ⟨a, b, c, d, x, y, rest, rfl⟩ :
      ∃ a b c d x y rest, p = a :: b :: c :: d :: x :: y :: rest := by
    match p, Nat.le_trans hlong hlen with
    | a :: b :: c :: d :: x :: y :: rest, _ => exact ⟨a, b, c, d, x, y, rest, rfl⟩
  have hdrop :
      (a :: b :: c :: d :: x :: y :: rest).drop elen.toNat = rest.drop (elen.toNat - 6) := by
    obtain ⟨k, hk⟩ := Nat.exists_eq_add_of_le' hlong
    rw [hk]
    rfl
  rw [hdrop]
  obtain ⟨rfl, rfl, rfl, rfl⟩ := hsel
  simp

lemma holdsGtk_of_parseGtk {gtk : List UInt8} {idx : UInt8} {skip : Nat}
    (h : parseGtk skip kd = some (idx, gtk)) : HoldsGtk kd idx gtk := by
  fun_induction parseGtk skip kd with
  | case1 skip b kd ih => exact @HoldsGtk.append _ [b] _ _ (ih h)
  | case2 id elen p hpad => cases h
  | case3 id elen p hpad hshort => cases h
  | case4 id elen p hpad hshort hgtk hbig => cases h
  | case5 id elen p hpad hshort hgtk hfits =>
    obtain ⟨rfl, hlong, hsel⟩ := hgtk
    cases h
    have hlong' : 6 ≤ elen.toNat := UInt8.le_iff_toNat_le.mp hlong
    have hsub : (elen - 6).toNat = elen.toNat - 6 := UInt8.toNat_sub_of_le elen 6 hlong
    have hlen : ((p.drop 6).take (elen.toNat - 6)).length = elen.toNat - 6 := by
      rw [length_take, length_drop]
      omega
    refine ⟨[], p.getD 4 0, p.getD 5 0, p.drop elen.toNat, ?_, rfl⟩
    rw [hsub, hlen, Nat.sub_add_cancel hlong']
    have hbody := gtk_body hsel hlong' (Nat.le_of_not_lt hshort)
    nth_rewrite 1 [hbody]
    simp
  | case6 id elen p hpad hshort hgtk ih => exact @HoldsGtk.append _ [id, elen] _ _ (ih h)
  | case7 => cases h

end Frames

/-! ## What one frame can do -/

/-- Message 1 of 4: a pairwise frame without a MIC. -/
def IsMessage1 (pkt : List UInt8) : Prop :=
  hasInfo pkt kiPairwise = true ∧ hasInfo pkt kiMic = false

instance (pkt : List UInt8) : Decidable (IsMessage1 pkt) := by
  unfold IsMessage1
  infer_instance

/-- A message 1 that passes the checks before it. -/
@[mk_iff]
structure Answered (e : Eapol) (pkt : List UInt8) : Prop where
  formed : malformed pkt = false
  version : info pkt &&& kiVersionMask = kiVersionAesSha1
  ack : hasInfo pkt kiAck = true
  fresh : replayOk e pkt = true
  first : IsMessage1 pkt

instance (e : Eapol) (pkt : List UInt8) : Decidable (Answered e pkt) :=
  decidable_of_iff' _ (answered_iff ..)

/-- The PTK that the nonce of a frame gives with the nonce to answer it by. -/
def Eapol.nextPtk (P : Prims) (rand : Nat → UInt8) (e : Eapol) (pkt : List UInt8) : List UInt8 :=
  derivePtk P e.pmk e.aa e.spa (nonceOf pkt)
    (if e.fixedSnonce then e.snonce else (range 32).map rand)

def Action.Installs (act : Action) : Prop :=
  act.installPtk = true ∨ act.installGtk = true

instance (act : Action) : Decidable act.Installs := by
  unfold Action.Installs
  infer_instance

lemma not_installs_ignore : ¬ Action.ignore.Installs := by
  decide

@[mk_iff]
structure Verified (P : Prims) (e : Eapol) (pkt : List UInt8) : Prop where
  formed : malformed pkt = false
  replay : replayOk e pkt = true
  keyed : e.ptkValid = true
  mic : verifyMic P e.ptk pkt = true

instance (P : Prims) (e : Eapol) (pkt : List UInt8) : Decidable (Verified P e pkt) :=
  decidable_of_iff' _ (verified_iff ..)

/-- Everything one frame can do to the supplicant. -/
inductive Outcome (P : Prims) (rand : Nat → UInt8) (e : Eapol) (pkt : List UInt8) :
    Eapol × Action → Prop
  | ignored (why : DropReason) : Outcome P rand e pkt ({ e with lastError := why }, .ignore)
  | answered (h : Answered e pkt) :
      Outcome P rand e pkt (message1 P rand { e with lastError := .none } pkt)
  | refused (verified : Verified P e pkt) (gtk : List UInt8) :
      Outcome P rand e pkt ({ e.advance pkt with gtk, lastError := .keydata }, .ignore)
  | installed (verified : Verified P e pkt) (notFirst : ¬ IsMessage1 pkt) (gtk : List UInt8)
      (idx : UInt8) (act : Action) (installs : act.Installs)
      (asked : act.installPtk = true → hasInfo pkt kiPairwise = true)
      (pairwise : hasInfo pkt kiPairwise = true → bytesCmp e.anonce (nonceOf pkt) = 0)
      (group : act.installGtk = true → unwrapKeyData P e.ptk pkt = some (idx, gtk)) :
      Outcome P rand e pkt ({ e.advance pkt with gtk, gtkIdx := idx, lastError := .none }, act)

section Outcomes

variable {rand : Nat → UInt8} {e : Eapol}

lemma message3_outcome (hv : Verified P e pkt) (hpair : hasInfo pkt kiPairwise = true)
    (hfirst : ¬ IsMessage1 pkt) :
    Outcome P rand e pkt (message3 P { e with lastError := .none } pkt) := by
  unfold message3
  split
  · exact .ignored .format
  split
  · exact .ignored .nonce
  · next hnonce =>
    have heq : bytesCmp e.anonce (nonceOf pkt) = 0 := not_not.mp hnonce
    dsimp only
    split
    · split
      · exact .refused hv []
      · next idx gtk hgtk =>
        exact .installed hv hfirst gtk idx _ (.inl rfl) (fun _ => hpair) (fun _ => heq)
          (fun _ => hgtk)
    · exact .installed hv hfirst [] e.gtkIdx _ (.inl rfl) (fun _ => hpair) (fun _ => heq)
        (Bool.noConfusion)

lemma groupMessage1_outcome (hv : Verified P e pkt) (hpair : hasInfo pkt kiPairwise = false)
    (hfirst : ¬ IsMessage1 pkt) :
    Outcome P rand e pkt (groupMessage1 P { e with lastError := .none } pkt) := by
  unfold groupMessage1
  split
  · exact .ignored .format
  · dsimp only
    split
    · exact .refused hv e.gtk
    · next idx gtk hgtk =>
      refine .installed hv hfirst gtk idx _ (Or.inr rfl) Bool.noConfusion (fun h => ?_)
        (fun _ => hgtk)
      rw [hpair] at h
      cases h

lemma eapolRx_outcome (P : Prims) (rand : Nat → UInt8) (e : Eapol) (pkt : List UInt8) :
    Outcome P rand e pkt (eapolRx P rand e pkt) := by
  unfold eapolRx
  dsimp only
  split
  · exact .ignored .format
  · next hformed =>
    have formed : malformed pkt = false := eq_false_of_ne_true hformed
    split
    · exact .ignored .version
    next hversion =>
    split
    · exact .ignored .format
    next hack =>
    split
    · exact .ignored .replay
    next hreplay =>
    split
    · next hfirst =>
      exact .answered ⟨formed, not_not.mp hversion, eq_true_of_ne_false hack,
        eq_true_of_ne_false hreplay, hfirst⟩
    next hfirst =>
    split
    · exact .ignored .noPtk
    next hkeyed =>
    split
    · exact .ignored .mic
    next hmic =>
    have hv : Verified P e pkt :=
      ⟨formed, eq_true_of_ne_false hreplay, eq_true_of_ne_false hkeyed,
        eq_true_of_ne_false fun hbad => hmic (Or.inr hbad)⟩
    split
    · next hpair => exact message3_outcome hv hpair hfirst
    · next hpair => exact groupMessage1_outcome hv (eq_false_of_ne_true hpair) hfirst

lemma eapolRx_of_answered (rand : Nat → UInt8) (h : Answered e pkt) :
    eapolRx P rand e pkt = message1 P rand { e with lastError := .none } pkt := by
  have hfresh : replayOk { e with lastError := .none } pkt = true := h.fresh
  have hfirst : hasInfo pkt kiPairwise = true ∧ hasInfo pkt kiMic = false := h.first
  simp only [eapolRx, h.formed, h.version, h.ack, hfresh, hfirst]
  rfl

lemma Outcome.of_installs {r : Eapol × Action} (h : Outcome P rand e pkt r) (hinst : r.2.Installs) :
    Verified P e pkt ∧ ¬ IsMessage1 pkt ∧ r.1.ptk = e.ptk ∧
      (r.2.installPtk = true → hasInfo pkt kiPairwise = true) ∧
      (hasInfo pkt kiPairwise = true → bytesCmp e.anonce (nonceOf pkt) = 0) ∧
      (r.2.installGtk = true → unwrapKeyData P e.ptk pkt = some (r.1.gtkIdx, r.1.gtk)) := by
  cases h with
  | ignored why => exact absurd hinst not_installs_ignore
  | answered h =>
    cases hinst with
    | inl hptk => cases hptk
    | inr hgtk => cases hgtk
  | refused verified gtk => exact absurd hinst not_installs_ignore
  | installed verified notFirst gtk idx act installs asked pairwise group =>
    exact ⟨verified, notFirst, rfl, asked, pairwise, group⟩

end Outcomes

/-! ## Runs -/

/-- A frame that reaches the supplicant, and the random bytes that are there for a nonce. -/
structure Arrival where
  pkt : List UInt8
  rand : Nat → UInt8

structure Supplicant where
  eapol : Eapol
  log : List (List UInt8 × Action)

def Supplicant.rx (P : Prims) (w : Supplicant) (a : Arrival) : Supplicant :=
  let (e, act) := eapolRx P a.rand w.eapol a.pkt
  ⟨e, w.log ++ [(a.pkt, act)]⟩

def Supplicant.after (P : Prims) (e : Eapol) (arrivals : List Arrival) : Supplicant :=
  arrivals.foldl (Supplicant.rx P) ⟨e, []⟩

def lastExchange (log : List (List UInt8 × Action)) : Option (List UInt8 × Action) :=
  (log.filter fun x => IsMessage1 x.1 ∧ x.2.send = true).getLast?

structure Held (P : Prims) (e₀ : Eapol) (w : Supplicant) : Prop where
  pmk : w.eapol.pmk = e₀.pmk
  aa : w.eapol.aa = e₀.aa
  spa : w.eapol.spa = e₀.spa
  anonceLen : w.eapol.anonce.length = 32
  snonceLen : w.eapol.snonce.length = 32
  replayLen : w.eapol.replay.length = 8
  /-- The PTK is the one of the last exchange of nonces. -/
  exchanged : w.eapol.ptkValid = true → ∃ pkt act, lastExchange w.log = some (pkt, act) ∧
    w.eapol.anonce = nonceOf pkt ∧
    w.eapol.ptk = derivePtk P e₀.pmk e₀.aa e₀.spa (nonceOf pkt) (nonceOf act.out)
  /-- No frame that installed a key has a counter above the one kept. -/
  fresh : ∀ pkt act, (pkt, act) ∈ w.log → act.Installs →
    w.eapol.replayValid = true ∧ BigEndian.value (replayOf pkt) ≤ BigEndian.value w.eapol.replay

section Runs

variable {e₀ : Eapol} {w : Supplicant} {a : Arrival} {log : List (List UInt8 × Action)}
  {x : List UInt8 × Action} {ssid rsnIe aa spa : List UInt8} {pass : CString}

lemma lastExchange_append_of_not (h : ¬ (IsMessage1 x.1 ∧ x.2.send = true)) :
    lastExchange (log ++ [x]) = lastExchange log := by
  rw [lastExchange, filter_append, filter_cons_of_neg (by simpa using h), filter_nil, append_nil]
  rfl

lemma lastExchange_append (h : IsMessage1 x.1 ∧ x.2.send = true) :
    lastExchange (log ++ [x]) = some x := by
  rw [lastExchange, filter_append, filter_cons_of_pos (by simpa using h), filter_nil,
    getLast?_append, getLast?_singleton, Option.some_or]

lemma Verified.value_lt {e : Eapol} (hv : Verified P e pkt) (hlen : e.replay.length = 8)
    (hvalid : e.replayValid = true) :
    BigEndian.value e.replay < BigEndian.value (replayOf pkt) := by
  have hok := of_decide_eq_true hv.replay
  cases hok with
  | inl hnone =>
    rw [hvalid] at hnone
    cases hnone
  | inr hpos => exact (bytesCmp_pos ((length_replayOf hv.formed).trans hlen.symm)).mp hpos

lemma Held.fresh_advance (h : Held P e₀ w) {act : Action} (hv : Verified P w.eapol pkt)
    {pkt' : List UInt8} {act' : Action} (hmem : (pkt', act') ∈ w.log ++ [(pkt, act)])
    (hinst : act'.Installs) :
    BigEndian.value (replayOf pkt') ≤ BigEndian.value (replayOf pkt) := by
  cases mem_append.mp hmem with
  | inl hold =>
    obtain ⟨hvalid, hle⟩ := h.fresh pkt' act' hold hinst
    exact Nat.le_trans hle (Nat.le_of_lt (hv.value_lt h.replayLen hvalid))
  | inr hnew =>
    cases mem_singleton.mp hnew
    exact Nat.le_refl _

lemma Held.rx (h : Held P e₀ w) : Held P e₀ (w.rx P a) := by
  have hout := eapolRx_outcome P a.rand w.eapol a.pkt
  unfold Supplicant.rx
  generalize eapolRx P a.rand w.eapol a.pkt = r at hout ⊢
  cases hout with
  | ignored why =>
    refine ⟨h.pmk, h.aa, h.spa, h.anonceLen, h.snonceLen, h.replayLen, fun hk => ?_,
      fun pkt act hmem hinst => ?_⟩
    · rw [lastExchange_append_of_not (fun hm => Bool.noConfusion hm.2)]
      exact h.exchanged hk
    · cases mem_append.mp hmem with
      | inl hold => exact h.fresh pkt act hold hinst
      | inr hnew =>
        cases mem_singleton.mp hnew
        exact absurd hinst not_installs_ignore
  | answered hans =>
    have hsnonce :
        (if w.eapol.fixedSnonce then w.eapol.snonce else (range 32).map a.rand).length = 32 := by
      split
      · exact h.snonceLen
      · rw [length_map, length_range]
    refine ⟨h.pmk, h.aa, h.spa, length_nonceOf hans.formed, hsnonce, h.replayLen, fun _ => ?_,
      fun pkt act hmem hinst => ?_⟩
    · refine ⟨a.pkt, _, lastExchange_append ⟨hans.first, rfl⟩, rfl, ?_⟩
      simp only [message1, nonceOf_buildReply (length_replayOf hans.formed) hsnonce, h.pmk,
        h.aa, h.spa]
    · cases mem_append.mp hmem with
      | inl hold => exact h.fresh pkt act hold hinst
      | inr hnew =>
        cases mem_singleton.mp hnew
        cases hinst with
        | inl hptk => cases hptk
        | inr hgtk => cases hgtk
  | refused verified gtk =>
    refine ⟨h.pmk, h.aa, h.spa, h.anonceLen, h.snonceLen, length_replayOf verified.formed,
      fun hk => ?_, fun pkt act hmem hinst => ⟨rfl, h.fresh_advance verified hmem hinst⟩⟩
    rw [lastExchange_append_of_not (fun hm => Bool.noConfusion hm.2)]
    exact h.exchanged hk
  | installed verified notFirst gtk idx act installs asked pairwise group =>
    refine ⟨h.pmk, h.aa, h.spa, h.anonceLen, h.snonceLen, length_replayOf verified.formed,
      fun hk => ?_, fun pkt act' hmem hinst => ⟨rfl, h.fresh_advance verified hmem hinst⟩⟩
    have hsame : lastExchange (w.log ++ [(a.pkt, act)]) = lastExchange w.log :=
      lastExchange_append_of_not fun hm => notFirst hm.1
    rw [hsame]
    exact h.exchanged hk

lemma Held.foldl (h : Held P e₀ w) (arrivals : List Arrival) :
    Held P e₀ (arrivals.foldl (Supplicant.rx P) w) := by
  induction arrivals generalizing w with
  | nil => exact h
  | cons a arrivals ih => exact ih h.rx

lemma eapolInit_eq (h : eapolInit P pass ssid aa spa rsnIe = some e₀) :
    ∃ pmk, e₀ = ⟨pmk, replicate 48 0, false, replicate 32 0, replicate 32 0, false,
      aa.take 6, spa.take 6, replicate 8 0, false, rsnIe, [], 0, .none⟩ := by
  unfold eapolInit at h
  split at h
  · cases h
  split at h
  · obtain ⟨pmk, -, hpmk⟩ := Option.map_eq_some_iff.mp h
    exact ⟨pmk, hpmk.symm⟩
  split at h
  · cases h
  · exact ⟨_, (Option.some.inj h).symm⟩

lemma held_init (h : eapolInit P pass ssid aa spa rsnIe = some e₀) : Held P e₀ ⟨e₀, []⟩ := by
  obtain ⟨pmk, rfl⟩ := eapolInit_eq h
  exact ⟨rfl, rfl, rfl, rfl, rfl, rfl, nofun, nofun⟩

end Runs

/-- **Keys are installed only on authentic, fresh frames.** -/
theorem keys_installed_authentic (P : Prims) (pass : CString) (ssid aa spa rsnIe : List UInt8)
    (e₀ : Eapol) (hinit : eapolInit P pass ssid aa spa rsnIe = some e₀) (arrivals : List Arrival)
    (a : Arrival) (e : Eapol) (act : Action)
    (hrx : eapolRx P a.rand (Supplicant.after P e₀ arrivals).eapol a.pkt = (e, act))
    (hinst : act.Installs) :
    (∃ pkt₁ act₁, lastExchange (Supplicant.after P e₀ arrivals).log = some (pkt₁, act₁) ∧
      let ptk := derivePtk P e₀.pmk (aa.take 6) (spa.take 6) (nonceOf pkt₁) (nonceOf act₁.out)
      computeMic P (kck ptk) (unsigned a.pkt) = micOf a.pkt ∧
      (hasInfo a.pkt kiPairwise = true → nonceOf a.pkt = nonceOf pkt₁) ∧
      tk e.ptk = tk ptk ∧
      (act.installGtk = true → ∃ plain,
        aes128Unwrap P (kek ptk) (keyData a.pkt) (kdLen a.pkt - 8) = some plain ∧
        parseGtk 0 plain = some (e.gtkIdx, e.gtk) ∧ HoldsGtk plain e.gtkIdx e.gtk)) ∧
    (∀ pkt act', (pkt, act') ∈ (Supplicant.after P e₀ arrivals).log → act'.Installs →
      BigEndian.value (replayOf pkt) < BigEndian.value (replayOf a.pkt) ∧ pkt ≠ a.pkt) := by
  have held : Held P e₀ (Supplicant.after P e₀ arrivals) := (held_init hinit).foldl arrivals
  generalize Supplicant.after P e₀ arrivals = w at held hrx ⊢
  have hout := eapolRx_outcome P a.rand w.eapol a.pkt
  rw [hrx] at hout
  obtain ⟨verified, -, hptk, -, pairwise, group⟩ := hout.of_installs hinst
  refine ⟨?_, fun pkt act' hmem hinst' => ?_⟩
  · obtain ⟨pkt₁, act₁, hlast, hanonce, hkeys⟩ := held.exchanged verified.keyed
    obtain ⟨pmk, hstart⟩ := eapolInit_eq hinit
    have haddr : e₀.aa = aa.take 6 ∧ e₀.spa = spa.take 6 := by
      rw [hstart]
      exact ⟨rfl, rfl⟩
    rw [haddr.1, haddr.2] at hkeys
    refine ⟨pkt₁, act₁, hlast, ?_⟩
    rw [← hkeys]
    refine ⟨(of_decide_eq_true verified.mic).2, fun hpair => ?_, by rw [hptk], fun hg => ?_⟩
    · have hlen : w.eapol.anonce.length = (nonceOf a.pkt).length :=
        held.anonceLen.trans (length_nonceOf verified.formed).symm
      rw [← hanonce]
      exact (bytesCmp_eq_zero hlen (pairwise hpair)).symm
    · have hunwrap := group hg
      unfold unwrapKeyData at hunwrap
      split at hunwrap
      · cases hunwrap
      · obtain ⟨plain, hplain, hparse⟩ := Option.bind_eq_some_iff.mp hunwrap
        exact ⟨plain, hplain, hparse, holdsGtk_of_parseGtk hparse⟩
  · obtain ⟨hvalid, hle⟩ := held.fresh pkt act' hmem hinst'
    have hlt := Nat.lt_of_le_of_lt hle (verified.value_lt held.replayLen hvalid)
    refine ⟨hlt, ?_⟩
    rintro rfl
    exact Nat.lt_irrefl _ hlt

/-! ## A handshake -/

def plainPrims : Prims where
  hmacSha1 _ _ := replicate 20 0
  aesDecrypt _ block := (replicate 8 0xA6 ++ block.drop 8 ++ replicate 8 0).take 16
  length_hmacSha1 _ _ := rfl
  length_aesDecrypt _ block := by
    rw [length_take, length_append, length_append, length_replicate, length_replicate]
    omega

def apFrame (info : UInt16) (counter : UInt8) (kd : List UInt8) : List UInt8 :=
  [2, 3] ++ putBe16 (UInt16.ofNat (95 + kd.length)) ++ [2] ++ putBe16 info ++ [0, 16] ++
    [0, 0, 0, 0, 0, 0, 0, counter] ++ replicate 32 5 ++ replicate 48 0 ++
    putBe16 (UInt16.ofNat kd.length) ++ kd

def gtkData (b : UInt8) : List UInt8 :=
  replicate 8 0 ++ [0xdd, 22, 0x00, 0x0f, 0xac, 1, 1, 0] ++ replicate 16 b

def hexPass : CString :=
  CString.ofField (replicate 64 97)

def plainStart : Eapol where
  pmk := replicate 32 0xaa
  ptk := replicate 48 0
  ptkValid := false
  anonce := replicate 32 0
  snonce := replicate 32 0
  fixedSnonce := false
  aa := replicate 6 1
  spa := replicate 6 2
  replay := replicate 8 0
  replayValid := false
  rsnIe := []
  gtk := []
  gtkIdx := 0
  lastError := .none

def helloFrame : Arrival := ⟨apFrame 0x008a 1 [], fun _ => 9⟩

def keysFrame (counter : UInt8) : Arrival := ⟨apFrame 0x13ca counter (gtkData 7), fun _ => 9⟩

/-- In a complete handshake the keys are installed under a MIC that verifies. -/
theorem keys_installed_authentic_handshake :
    eapolInit plainPrims hexPass [] (replicate 6 1) (replicate 6 2) [] = some plainStart ∧
    (eapolRx plainPrims (fun _ => 9) (Supplicant.after plainPrims plainStart [helloFrame]).eapol
      (keysFrame 2).pkt).2.Installs ∧
    computeMic plainPrims (kck (derivePtk plainPrims plainStart.pmk (replicate 6 1) (replicate 6 2)
      (nonceOf helloFrame.pkt) (replicate 32 9))) (unsigned (keysFrame 2).pkt) =
      micOf (keysFrame 2).pkt := by
  have hinit :
      eapolInit plainPrims hexPass [] (replicate 6 1) (replicate 6 2) [] = some plainStart := by
    decide +kernel
  have hinst :
    (eapolRx plainPrims (fun _ => 9) (Supplicant.after plainPrims plainStart [helloFrame]).eapol
      (keysFrame 2).pkt).2.Installs := by
    decide +kernel
  refine ⟨hinit, hinst, ?_⟩
  obtain ⟨⟨pkt₁, act₁, hlast, hmic, -⟩, -⟩ :=
    keys_installed_authentic plainPrims hexPass [] (replicate 6 1)
    (replicate 6 2) [] plainStart hinit [helloFrame] (keysFrame 2) _ _ (Prod.eta _).symm hinst
  have hpkt : (lastExchange (Supplicant.after plainPrims plainStart [helloFrame]).log).map
      (fun x => (nonceOf x.1, nonceOf x.2.out)) =
      some (nonceOf helloFrame.pkt, replicate 32 9) := by
    decide +kernel
  exact hmic

end Anunix.Wifi
