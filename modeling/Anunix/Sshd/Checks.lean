import Anunix.Sshd.Keeps

/-!
# What the checks of the authentication loop establish

The three checks behind a session: the password check, the search of the authorized keys and the
shape of a key blob. Each is stated against the credential store it consulted.
-/

namespace Anunix.Sshd

open Fallible Auth Credential Region List

/-- A password that is the one in force: the credential `ssh-password` if it is there and not empty,
of which the check compares the first 127 bytes and the length, otherwise the default. -/
def PasswordAccepted (slots : List (Option Entry)) (offered : List UInt8) : Prop :=
  (∃ i e, findByName slots (CString.ofString "ssh-password") = some (i, e) ∧ 0 < e.secret.length ∧
      offered.length = e.secret.length ∧ offered.take 127 = e.secret.take 127) ∨
    ((∀ i e, findByName slots (CString.ofString "ssh-password") = some (i, e) → e.secret = []) ∧
      offered = ascii "anunix")

/-- A key that is one of those in the credential `ssh-authorized-keys`, if that is there. -/
def Listed (slots : List (Option Entry)) (pk : List UInt8) : Prop :=
  ∀ i e, findByName slots (CString.ofString "ssh-authorized-keys") = some (i, e) →
    ∃ n, (e.secret.drop (32 * n)).take 32 = pk

/-! ## Reading credentials -/

lemma ends_kern {α : Type} {x : Credential.Prog α} {s : State} {Q : α → State → Prop}
    {E : Halt → State → Prop} (h : Ends x s.kernel (fun a k => Q a { s with kernel := k })
      fun e k => E (.code e) { s with kernel := k }) :
    Ends (kern x) s Q E := by
  unfold Ends at h ⊢
  cases hx : x s.kernel
  all_goals
    simpa [kern, hx] using h

section Reading

variable (s : State) (name : CString) {E : Halt → State → Prop}

lemma ends_ask_bind {α : Type} {f : Nat → Prog α} {Q : α → State → Prop}
    (h : Ends (f s.tick) { s with tick := s.tick + 1 } Q E) : Ends (ask >>= f) s Q E :=
  h

lemma ends_exists_bind {α : Type} {f : Bool → Prog α} {Q : α → State → Prop}
    (h : Ends (f (findByName s.kernel.slots name).isSome) s Q E) :
    Ends (kern (exists_ name) >>= f) s Q E :=
  h

def readResult (slots : List (Option Entry)) (len : Nat) : Except Halt (List UInt8 × Nat) :=
  match findByName slots name with
  | some (_, e) => .ok (e.secret.take len, e.secret.length)
  | none => .error (.code .enoent)

lemma attempt_readSystem (r : Around) (len : Nat) :
    Succeeds (attempt (kern (readSystem r name len))) s
      fun a s' => a = readResult name s.kernel.slots len ∧ s'.view = s.view := by
  apply Ends.attempt
  apply ends_kern
  apply Ends.orThrow_bind
  · intro hfind
    refine ⟨?_, rfl⟩
    rw [readResult, hfind]
  · rintro ⟨i, e⟩ hfind
    refine ⟨?_, rfl⟩
    rw [readResult, hfind]

end Reading

lemma load_copied (l : List UInt8) (rest : Nat → UInt8) :
    load (fun i => if i < l.length then l.getD i 0 else rest i) 0 l.length = l := by
  apply ext_getElem?
  intro i
  rcases Nat.lt_or_ge i l.length with hi | hi
  · rw [getElem?_load hi, Nat.zero_add, if_pos hi, getD_eq_getElem?_getD,
      getElem?_eq_getElem hi, Option.getD_some]
  · rw [getElem?_eq_none hi, getElem?_eq_none (by rw [length_load]; exact hi)]

/-! ## The password check -/

section Password

variable {env : Env} {pw : Slice}

lemma bytes_of_strEq {p : Slice} {str : String} (h : strEq p str = true) : p.bytes = ascii str := by
  obtain ⟨hlen, hbytes⟩ := of_decide_eq_true h
  rw [Slice.bytes, hlen, hbytes]

lemma secretMatches_spec {t : Nat} {secret : List UInt8}
    (h : secretMatches env t (secret.take 127) secret.length pw = true) :
    pw.bytes.length = secret.length ∧ pw.bytes.take 127 = secret.take 127 := by
  obtain ⟨hlen, hbytes⟩ := of_decide_eq_true h
  have hpw : pw.bytes = load (fun i =>
      if i < (secret.take 127).length then (secret.take 127).getD i 0 else
          env.beyond t i) 0 secret.length := by
    rw [hbytes, Slice.bytes, hlen]
  refine ⟨by rw [hpw, length_load], ?_⟩
  have hcopied := load_copied (secret.take 127) (env.beyond t)
  rw [hpw]
  rcases Nat.le_total secret.length 127 with hle | hge
  · rw [take_of_length_le hle] at hcopied ⊢
    rw [take_of_length_le (by rw [length_load]; exact hle)]
    exact hcopied
  · rw [take_load hge]
    rw [length_take, Nat.min_eq_left hge] at hcopied
    rw [length_take, Nat.min_eq_left hge]
    exact hcopied

lemma checkPassword_ends (s : State) : Ends (checkPassword env pw) s
      (fun ok s' => s'.view = s.view ∧ (ok = true → PasswordAccepted s.kernel.slots pw.bytes))
      fun _ s' => s'.view = s.view := by
  apply ends_exists_bind
  cases hfind : findByName s.kernel.slots (CString.ofString "ssh-password") with
  | none =>
    refine ⟨rfl, ?_⟩
    intro hok
    refine .inr ⟨?_, bytes_of_strEq hok⟩
    intro i e h
    rw [hfind] at h
    cases h
  | some p =>
    obtain ⟨i, e⟩ := p
    apply ends_ask_bind
    refine (attempt_readSystem { s with tick := s.tick + 1 } _ _ _).next ?_
    rintro _ s' ⟨rfl, hview⟩
    refine ⟨hview, ?_⟩
    intro hok
    simp only [readResult, hfind, passwordMatches] at hok
    split at hok
    · rename_i hpos
      obtain ⟨hlen, htake⟩ := secretMatches_spec hok
      exact .inl ⟨i, e, hfind, hpos, hlen, htake⟩
    · rename_i hpos
      refine .inr ⟨?_, bytes_of_strEq hok⟩
      intro j f hf
      rw [hfind] at hf
      cases hf
      exact length_eq_zero_iff.mp (Nat.eq_zero_of_not_pos hpos)

end Password

/-! ## The authorized keys -/

lemma keyListed_spec {secret pk : List UInt8}
    (h : keyListed (.ok (secret.take authkeysSize, secret.length)) pk = true) :
    ∃ n, (secret.drop (32 * n)).take 32 = pk := by
  simp only [keyListed, any_eq_true, mem_range, decide_eq_true_eq] at h
  obtain ⟨n, hn, hpk⟩ := h
  have hle :
    (if min secret.length authkeysSize % 32 ≠ 0 then 0 else min secret.length authkeysSize) ≤
      authkeysSize := by
    split
    · exact Nat.zero_le _
    · exact Nat.min_le_right _ _
  refine ⟨n, ?_⟩
  rw [← hpk, drop_take, take_take, Nat.min_eq_left (by omega)]

lemma checkAuthorized_ends {env : Env} (s : State) (pk : List UInt8) :
    Ends (checkAuthorized env pk) s
      (fun ok s' => s'.view = s.view ∧ (ok = true → Listed s.kernel.slots pk))
      fun _ s' => s'.view = s.view := by
  apply ends_exists_bind
  cases hfind : findByName s.kernel.slots (CString.ofString "ssh-authorized-keys") with
  | none =>
    refine ⟨rfl, ?_⟩
    intro _ i e h
    rw [hfind] at h
    cases h
  | some p =>
    apply ends_ask_bind
    refine (attempt_readSystem { s with tick := s.tick + 1 } _ _ _).next ?_
    rintro _ s' ⟨rfl, hview⟩
    refine ⟨hview, ?_⟩
    intro hok j f hf
    rw [hfind] at hf
    cases hf
    simp only [readResult, hfind] at hok
    exact keyListed_spec hok

/-! ## Blobs -/

lemma pktGetString_spec {p q : Slice} {off next : UInt32}
    (h : pktGetString p off = some (q, next)) :
    q.mem = (fun i => p.mem ((off + 4).toNat + i)) ∧ next = off + 4 + q.len ∧
    off + 4 + q.len ≤ p.len := by
  unfold pktGetString at h
  split at h
  · cases h
  · dsimp only at h
    split at h
    · cases h
    · rename_i hle
      cases h
      exact ⟨rfl, rfl, UInt32.not_lt.mp hle⟩

lemma take_drop_load (mem : Nat → UInt8) {a n m : Nat} (h : a + n ≤ m) :
    ((load mem 0 m).drop a).take n = load (fun i => mem (a + i)) 0 n := by
  obtain ⟨d, rfl⟩ := Nat.exists_eq_add_of_le h
  rw [load_add, load_add, append_assoc, drop_left' length_load, take_left' length_load]
  apply load_eq_load
  intro i _
  rw [Nat.zero_add, Nat.zero_add]

lemma parseBlob_spec {blob data : Slice} {len : UInt32} (h : parseBlob blob len = some data)
    (hlen : len.toNat < 1000) : data.bytes = (blob.bytes.drop 19).take len.toNat := by
  simp only [parseBlob, Option.bind_eq_bind, Option.bind_eq_some_iff,
    Option.ite_none_right_eq_some] at h
  obtain ⟨⟨algo, off⟩, halgo, ⟨data', _⟩, hdata, ⟨hname, hdlen⟩, heq⟩ := h
  cases heq
  obtain ⟨-, hoff, -⟩ := pktGetString_spec halgo
  obtain ⟨hmem, -, hle⟩ := pktGetString_spec hdata
  have halgoLen : algo.len = 11 := by
    apply UInt32.toNat_inj.mp
    rw [(of_decide_eq_true hname).1]
    decide +kernel
  rw [halgoLen] at hoff
  have hoff' : off = 15 := hoff
  subst hoff'
  have hroom : 19 + len.toNat ≤ blob.len.toNat := by
    have hnat := UInt32.le_iff_toNat_le.mp hle
    rw [hdlen, show (15 + 4 : UInt32) = 19 from rfl, UInt32.toNat_add,
      Nat.mod_eq_of_lt (by simp only [UInt32.toNat_ofNat]; omega)] at hnat
    exact hnat
  rw [Slice.bytes, Slice.bytes, take_drop_load blob.mem hroom, hmem, hdlen]
  rfl

end Anunix.Sshd
