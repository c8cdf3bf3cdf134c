import Anunix.Lib.Run
import Anunix.Wifi.Authentic

/-!
# Keys of the station

`handle_eapol`, `install_ptk` and `install_gtk` of `kernel/drivers/net/wifi/mt7925_sta.c`: what the
driver does with the keys the supplicant asks it to install. The radio holds one pairwise key and a
group key under each index; giving it a key starts the packet numbers of that key anew.

The supplicant accepts a message again when its replay counter has grown, and the driver installs
whatever it is asked to, so a retransmitted message 3 or group message installs keys that are in use
(`key_reinstalled`). Without retransmissions it does not happen (`no_key_reinstalled`).
-/

namespace Anunix.Wifi
open List

/-! ## The driver -/

/-- A key given to the radio (C `mt7925_mcu_add_key`). -/
inductive KeyCommand where
  | pairwise (key : List UInt8)
  | group (idx : UInt8) (key : List UInt8)
  deriving DecidableEq, Repr

/-- How a key command ends: whether the radio took the key, and whether the driver was told so. -/
structure KeyReply where
  took : Bool
  ok : Bool
  ok_took : ok = true → took = true

structure Radio where
  txOk : Bool
  bssOk : Bool
  ptkReply : KeyReply
  gtkReply : KeyReply

/-- The fields of `struct mt7925_dev` that concern keys, and the keys the radio has. -/
structure Station where
  eapol : Eapol
  cipherSet : Bool
  pairwise : Option (List UInt8)
  group : UInt8 → Option (List UInt8)

def Station.InUse (dev : Station) : KeyCommand → Prop
  | .pairwise key => dev.pairwise = some key
  | .group idx key => dev.group idx = some key

instance (dev : Station) (cmd : KeyCommand) : Decidable (dev.InUse cmd) :=
  match cmd with
  | .pairwise key => inferInstanceAs (Decidable (dev.pairwise = some key))
  | .group idx key => inferInstanceAs (Decidable (dev.group idx = some key))

/-- C `mt7925_mcu_add_key`. -/
def Station.addKey (dev : Station) (took : Bool) : KeyCommand → Station
  | .pairwise key => if took then { dev with pairwise := some key } else dev
  | .group idx key =>
    if took then { dev with group := Function.update dev.group idx (some key) } else dev

/-- What the driver did: the station after it, the keys it gave to the radio, and whether it
returned `ANX_OK`. -/
structure Done where
  dev : Station
  given : List KeyCommand
  ok : Bool

def Station.give (dev : Station) (reply : KeyReply) (cmd : KeyCommand) : Done :=
  ⟨dev.addKey reply.took cmd, [cmd], reply.ok⟩

/-- C `install_ptk`: the first key sets the cipher of the BSS. -/
def installPtk (r : Radio) (dev : Station) : Done :=
  if dev.cipherSet = false ∧ r.bssOk = false then ⟨{ dev with cipherSet := true }, [], false⟩
  else { dev with cipherSet := true }.give r.ptkReply (.pairwise (tk dev.eapol.ptk))

/-- C `install_gtk`. -/
def installGtk (r : Radio) (dev : Station) : Done :=
  dev.give r.gtkReply (.group dev.eapol.gtkIdx dev.eapol.gtk)

/-- The first of the two installations at the end of `handle_eapol`. -/
def afterPtk (r : Radio) (dev : Station) (act : Action) : Done :=
  if act.installPtk then installPtk r dev else ⟨dev, [], true⟩

/-- Both of them: the second comes only if the first did not fail. -/
def installKeys (r : Radio) (dev : Station) (act : Action) : Done :=
  let first := afterPtk r dev act
  if first.ok = true ∧ act.installGtk = true then
    let second := installGtk r first.dev
    ⟨second.dev, first.given ++ second.given, second.ok⟩
  else first

/-- C `handle_eapol`. -/
def handleEapol (P : Prims) (r : Radio) (dev : Station) (a : Arrival) : Done :=
  let (e, act) := eapolRx P a.rand dev.eapol a.pkt
  let dev := { dev with eapol := e }
  if act.send = false ∧ act.installPtk = false ∧ act.installGtk = false then ⟨dev, [], true⟩
  else if act.send = true ∧ r.txOk = false then ⟨dev, [], false⟩
  else installKeys r dev act

/-! ## An association -/

structure Received where
  arrival : Arrival
  radio : Radio

/-- The station during an association. `renewed` says that a message 1 has been answered since a
pairwise key was given to the radio, and `carried` lists the group keys of the authentic frames so
far. -/
structure Association where
  dev : Station
  renewed : Bool
  carried : List (UInt8 × List UInt8)

def Association.rx (P : Prims) (s : Association) (x : Received) : Eapol × Action :=
  eapolRx P x.arrival.rand s.dev.eapol x.arrival.pkt

def Association.handle (P : Prims) (s : Association) (x : Received) : Done :=
  handleEapol P x.radio s.dev x.arrival

/-- The group key in a frame with a MIC under the PTK and a fresh replay counter. -/
def Association.carries (P : Prims) (s : Association) (x : Received) :
    Option (UInt8 × List UInt8) :=
  if Verified P s.dev.eapol x.arrival.pkt then unwrapKeyData P s.dev.eapol.ptk x.arrival.pkt else
    none

def IsPairwise : KeyCommand → Bool
  | .pairwise _ => true
  | .group _ _ => false

def Association.step (P : Prims) (s : Association) (x : Received) : Association where
  dev := (s.handle P x).dev
  renewed :=
    if Answered s.dev.eapol x.arrival.pkt then true
    else if (s.handle P x).given.any IsPairwise then false
    else s.renewed
  carried := s.carried ++ (s.carries P x).toList

def associationAt (P : Prims) (dev : Station) (frames : List Received) (n : Nat) : Association :=
  Run.after (Association.step P) ⟨dev, false, []⟩ frames n

/-- No key is sent twice: an authentic message 3 follows a message 1, the nonces of a message 1 give
another temporal key than that in use, and no authentic frame carries the group key of an earlier
one. -/
@[mk_iff]
structure Association.Renews (P : Prims) (s : Association) (x : Received) : Prop where
  once : Verified P s.dev.eapol x.arrival.pkt → hasInfo x.arrival.pkt kiPairwise = true →
    IsMessage1 x.arrival.pkt ∨ s.renewed = true ∨ s.dev.pairwise = none
  fresh : Answered s.dev.eapol x.arrival.pkt →
    s.dev.pairwise ≠ some (tk (s.dev.eapol.nextPtk P x.arrival.rand x.arrival.pkt))
  group : ∀ key ∈ s.carries P x, key ∉ s.carried

instance (P : Prims) (s : Association) (x : Received) : Decidable (s.Renews P x) :=
  decidable_of_iff' _ (Association.renews_iff ..)

/-! ## What one frame gives to the radio -/

/-- What a function of the driver does: the supplicant is left alone, the keys given to the radio
are of a kind, and the radio has another key only if it was given one. -/
structure Gives (kind : KeyCommand → Prop) (dev : Station) (d : Done) : Prop where
  eapol : d.dev.eapol = dev.eapol
  given : ∀ cmd ∈ d.given, kind cmd
  pairwise : d.given.any IsPairwise = false → d.dev.pairwise = dev.pairwise
  group : ∀ idx key, d.dev.group idx = some key → dev.group idx = some key ∨
    .group idx key ∈ d.given

section Given

variable {r : Radio} {dev : Station} {act : Action}

lemma Gives.nothing {kind : KeyCommand → Prop} {ok : Bool} : Gives kind dev ⟨dev, [], ok⟩ :=
  ⟨rfl, nofun, fun _ => rfl, fun _ _ => .inl⟩

lemma Station.give_gives (dev : Station) (reply : KeyReply) (cmd : KeyCommand) :
    Gives (· = cmd) dev (dev.give reply cmd) := by
  obtain ⟨took, ok, hok⟩ := reply
  cases cmd with
  | pairwise key =>
    refine ⟨?_, fun _ => mem_singleton.mp, Bool.noConfusion, fun _ _ h => .inl ?_⟩
    · cases took <;> rfl
    · cases took <;> exact h
  | group idx key =>
    refine ⟨?_, fun _ => mem_singleton.mp, fun _ => ?_, fun idx' key' h => ?_⟩
    · cases took <;> rfl
    · cases took <;> rfl
    cases took with
    | false => exact .inl h
    | true =>
      by_cases hidx : idx' = idx
      · subst hidx
        obtain rfl : key = key' := Option.some.inj ((Function.update_self idx' _ _).symm.trans h)
        exact .inr (mem_singleton_self _)
      · exact .inl ((Function.update_of_ne hidx _ _).symm.trans h)

lemma installPtk_gives : Gives (· = .pairwise (tk dev.eapol.ptk)) dev (installPtk r dev) := by
  unfold installPtk
  split
  · exact ⟨rfl, nofun, fun _ => rfl, fun _ _ => .inl⟩
  · have hgive :=
      Station.give_gives { dev with cipherSet := true } r.ptkReply (.pairwise (tk dev.eapol.ptk))
    exact ⟨hgive.eapol, hgive.given, hgive.pairwise, hgive.group⟩

lemma afterPtk_gives :
    Gives (fun cmd => act.installPtk = true ∧ cmd = .pairwise (tk dev.eapol.ptk)) dev
    (afterPtk r dev act) := by
  unfold afterPtk
  split
  · next hptk =>
    have hgives : Gives _ dev (installPtk r dev) := installPtk_gives
    exact { hgives with given := fun cmd h => ⟨hptk, hgives.given cmd h⟩ }
  · exact .nothing

def Action.Asks (act : Action) (e : Eapol) (cmd : KeyCommand) : Prop :=
  act.installPtk = true ∧ cmd = .pairwise (tk e.ptk) ∨ act.installGtk = true ∧
    cmd = .group e.gtkIdx e.gtk

lemma installKeys_gives (r : Radio) (dev : Station) (act : Action) :
    Gives (act.Asks dev.eapol) dev (installKeys r dev act) := by
  have hfirst : Gives _ dev (afterPtk r dev act) := afterPtk_gives
  unfold installKeys
  dsimp only
  split
  · next hgtk =>
    have hsecond : Gives _ _ (installGtk r (afterPtk r dev act).dev) := Station.give_gives _ _ _
    refine ⟨hsecond.eapol.trans hfirst.eapol, fun cmd h => ?_, fun h => ?_, fun idx key h => ?_⟩
    · cases mem_append.mp h with
      | inl h => exact .inl (hfirst.given cmd h)
      | inr h =>
        have hcmd := hsecond.given cmd h
        rw [hfirst.eapol] at hcmd
        exact .inr ⟨hgtk.2, hcmd⟩
    · obtain ⟨h1, h2⟩ := Bool.or_eq_false_iff.mp (any_append.symm.trans h)
      exact (hsecond.pairwise h2).trans (hfirst.pairwise h1)
    · refine (hsecond.group idx key h).elim (fun h => ?_) fun h => .inr (mem_append_right _ h)
      exact (hfirst.group idx key h).imp_right (mem_append_left _)
  · exact { hfirst with given := fun cmd h => .inl (hfirst.given cmd h) }

end Given

section Frames

variable {P : Prims} {s : Association} {x : Received} {cmd : KeyCommand}

lemma Association.handle_gives (P : Prims) (s : Association) (x : Received) :
    Gives ((s.rx P x).2.Asks (s.rx P x).1) { s.dev with eapol := (s.rx P x).1 } (s.handle P x) := by
  unfold Association.handle handleEapol Association.rx
  dsimp only
  split
  · exact .nothing
  split
  · exact .nothing
  · exact installKeys_gives x.radio { s.dev with eapol := _ } _

lemma Association.rx_outcome (P : Prims) (s : Association) (x : Received) :
    Outcome P x.arrival.rand s.dev.eapol x.arrival.pkt (s.rx P x) :=
  eapolRx_outcome _ _ _ _

lemma Association.rx_ptk (h : ¬ Answered s.dev.eapol x.arrival.pkt) :
    (s.rx P x).1.ptk = s.dev.eapol.ptk := by
  have hout := s.rx_outcome P x
  generalize s.rx P x = r at hout
  cases hout with
  | ignored why => rfl
  | answered hans => exact absurd hans h
  | refused verified gtk => rfl
  | installed verified notFirst gtk idx act installs asked pairwise group => rfl

/-- A message 1 gives nothing to the radio. -/
lemma Association.not_asks (h : Answered s.dev.eapol x.arrival.pkt) :
    ¬ (s.rx P x).2.Asks (s.rx P x).1 cmd := by
  rw [Association.rx, eapolRx_of_answered _ h]
  rintro (⟨hptk, _⟩ | ⟨hgtk, _⟩)
  · cases hptk
  · cases hgtk

lemma Association.handle_of_answered (h : Answered s.dev.eapol x.arrival.pkt) :
    (s.handle P x).given.any IsPairwise = false := by
  rw [any_eq_false]
  exact fun cmd hcmd => absurd ((s.handle_gives P x).given cmd hcmd) (Association.not_asks h)

/-- A group key that is given to the radio was in the frame. -/
lemma Association.carries_of_given {idx : UInt8} {key : List UInt8}
    (h : .group idx key ∈ (s.handle P x).given) : s.carries P x = some (idx, key) := by
  rcases (s.handle_gives P x).given _ h with ⟨-, hcmd⟩ | ⟨hask, hcmd⟩
  · cases hcmd
  obtain ⟨hv, -, -, -, -, hunwrap⟩ := (s.rx_outcome P x).of_installs (.inr hask)
  cases hcmd
  rw [Association.carries, if_pos hv]
  exact hunwrap hask

/-- While a renewed PTK waits to be installed the radio has another key, and its group keys are
among those that the frames carried. -/
structure Association.Apart (s : Association) : Prop where
  pairwise : s.renewed = true → s.dev.pairwise ≠ some (tk s.dev.eapol.ptk)
  group : ∀ idx key, s.dev.group idx = some key → (idx, key) ∈ s.carried

lemma Association.Apart.step (h : s.Apart) (hrenews : s.Renews P x) : (s.step P x).Apart := by
  have hgives := s.handle_gives P x
  unfold Association.step
  refine ⟨fun hren => ?_, fun idx key hkey => ?_⟩
  · dsimp only at hren ⊢
    rw [hgives.eapol]
    split at hren
    · next hanswered =>
      rw [hgives.pairwise (Association.handle_of_answered hanswered), Association.rx,
        eapolRx_of_answered _ hanswered]
      exact hrenews.fresh hanswered
    · next hanswered =>
      split at hren
      · cases hren
      · next hnone =>
        rw [hgives.pairwise (eq_false_of_ne_true hnone), Association.rx_ptk hanswered]
        exact h.pairwise hren
  · rcases hgives.group idx key hkey with hold | hnew
    · exact mem_append_left _ (h.group idx key hold)
    · rw [Association.carries_of_given hnew]
      exact mem_append_right _ (mem_singleton_self _)

/-- A frame that renews its keys gives the radio none that is in use. -/
lemma Association.Apart.not_inUse (h : s.Apart) (hrenews : s.Renews P x)
    (hcmd : cmd ∈ (s.handle P x).given) : ¬ s.dev.InUse cmd := by
  cases cmd with
  | pairwise key =>
    intro huse
    rcases (s.handle_gives P x).given _ hcmd with ⟨hask, hkey⟩ | ⟨-, hkey⟩
    · obtain ⟨hv, hfirst, -, hpair, -⟩ := (s.rx_outcome P x).of_installs (.inl hask)
      cases hkey
      rw [Station.InUse, Association.rx_ptk fun h => hfirst h.first] at huse
      rcases hrenews.once hv (hpair hask) with hone | hren | hnone
      · exact hfirst hone
      · exact h.pairwise hren huse
      · cases hnone.symm.trans huse
    · cases hkey
  | group idx key =>
    exact fun huse => hrenews.group _ (Association.carries_of_given hcmd) (h.group idx key huse)

end Frames

/-! ## Reinstallation -/

/-- **No key is installed twice**, as long as keys are renewed. -/
theorem no_key_reinstalled (P : Prims) (dev : Station) (frames : List Received)
    (hdev : ∀ idx, dev.group idx = none)
    (hrenews : ∀ n x, frames[n]? = some x → (associationAt P dev frames n).Renews P x)
    (n : Nat) (x : Received) (hx : frames[n]? = some x) :
    ∀ cmd ∈ ((associationAt P dev frames n).handle P x).given,
      ¬ (associationAt P dev frames n).dev.InUse cmd := by
  have hapart : (associationAt P dev frames n).Apart := by
    refine Run.after_kept _ ⟨Bool.noConfusion, fun idx key h => ?_⟩
      (fun n y hn ih => ih.step (hrenews n y hn)) n
    cases (hdev idx).symm.trans h
  intro cmd hcmd
  exact hapart.not_inUse (hrenews n x hx) hcmd

def goodRadio : Radio :=
  ⟨true, true, ⟨true, true, id⟩, ⟨true, true, id⟩⟩

def freshStation : Station :=
  ⟨plainStart, false, none, fun _ => none⟩

def groupFrame (counter b : UInt8) : Arrival :=
  ⟨apFrame 0x1382 counter (gtkData b), fun _ => 9⟩

def rekeyFrames : List Received :=
  [⟨helloFrame, goodRadio⟩, ⟨keysFrame 2, goodRadio⟩, ⟨groupFrame 3 8, goodRadio⟩]

/-- A group rekey with a new key is installed. -/
theorem no_key_reinstalled_rekey :
    ((associationAt plainPrims freshStation rekeyFrames 2).handle plainPrims ⟨groupFrame 3 8,
      goodRadio⟩).given = [.group 1 (replicate 16 8)] ∧
    ¬ (associationAt plainPrims freshStation rekeyFrames 2).dev.InUse
    (.group 1 (replicate 16 8)) := by
  have hgiven : ((associationAt plainPrims freshStation rekeyFrames 2).handle plainPrims
      ⟨groupFrame 3 8, goodRadio⟩).given = [.group 1 (replicate 16 8)] := by
    decide +kernel
  have hrenews : ∀ n : Fin rekeyFrames.length,
      (associationAt plainPrims freshStation rekeyFrames n).Renews plainPrims
      (rekeyFrames.get n) := by
    decide +kernel
  refine ⟨hgiven, ?_⟩
  apply no_key_reinstalled plainPrims freshStation rekeyFrames (fun _ => rfl) _ 2 ⟨groupFrame 3 8,
    goodRadio⟩ rfl
  · rw [hgiven]
    exact mem_singleton.mpr rfl
  · intro n x hx
    obtain ⟨hlt, rfl⟩ := List.getElem?_eq_some_iff.mp hx
    exact hrenews ⟨n, hlt⟩

def keyedAssociation : Association :=
  associationAt plainPrims freshStation [⟨helloFrame, goodRadio⟩, ⟨keysFrame 2, goodRadio⟩] 2

/-- A message 3 or a group message that is sent again installs the keys in use once more. -/
theorem key_reinstalled : ((keyedAssociation.handle plainPrims ⟨keysFrame 3, goodRadio⟩).given =
        [.pairwise (replicate 16 0), .group 1 (replicate 16 7)] ∧
      keyedAssociation.dev.InUse (.pairwise (replicate 16 0)) ∧
      keyedAssociation.dev.InUse (.group 1 (replicate 16 7))) ∧
    (keyedAssociation.handle plainPrims ⟨groupFrame 3 7, goodRadio⟩).given =
    [.group 1 (replicate 16 7)] := by
  decide +kernel

end Anunix.Wifi
