import Anunix.Credential.Image
import Anunix.Lib.Keyed
import Anunix.Lib.Run

/-!
# The credential store as a persistent map

What the store is for: a map from names to a type and a secret, changed by create, rotate and
revoke, that survives a reboot. `Holds slots m` relates the array of slots to the map; each
successful call takes the map where the change says, and saving leaves an image from which loading
restores the map.

This holds for names that fit the 128 bytes the store keeps of them and for secrets that fit an
entry of the image. A longer name is cut when it is stored and not when it is looked up, and a
longer secret is cut in the image.
-/

namespace Anunix.Credential

open Fallible Auth Slots Function
open List hiding get

/-! ## The map -/

/-- What the store is meant to be: for each name its type and secret. -/
abbrev Map := CString → Option (CredType × List UInt8)

inductive Change where
  | create (name : CString) (credType : CredType) (secret : List UInt8)
  | rotate (name : CString) (secret : List UInt8)
  | revoke (name : CString)

def Change.apply (m : Map) : Change → Map
  | .create name credType secret => update m name (some (credType, secret))
  | .rotate name secret => update m name ((m name).map fun p => (p.1, secret))
  | .revoke name => update m name none

def Change.exec (r : Around) : Change → Prog PUnit
  | .create name credType secret => Credential.create r name credType secret
  | .rotate name secret => Credential.rotate r name secret
  | .revoke name => Credential.revoke r name

def storeAt (s : State) (run : List (Change × Around)) (n : Nat) : State :=
  Run.after (fun s c => final (c.1.exec c.2) s) s run n

def mapAt (run : List (Change × Around)) (n : Nat) : Map :=
  Run.after (fun m c => c.1.apply m) (fun _ => none) run n

structure State.Fresh (s : State) : Prop where
  slots : s.slots = replicate credstoreMax none
  disk : s.disk = none
  loading : s.loading = false

def Successful (s : State) (run : List (Change × Around)) : Prop :=
  ∀ n c r, run[n]? = some (c, r) →
    (outcome (c.exec r) (storeAt s run n)).isOk = true ∧ r.written = true

def expected (m : Map) (name : CString) (bufLen : Nat) : Except Err (List UInt8 × Nat) :=
  match m name with
  | some p => .ok (p.2.take bufLen, p.2.length)
  | none => .error .enoent

/-- To its callers the store is the map: each name of it is found, read back whole and listed once,
a name of it cannot be created again, and it has at most `CREDSTORE_MAX` names. -/
structure Presents (s : State) (m : Map) : Prop where
  found : ∀ name, outcome (exists_ name) s = .ok (m name).isSome
  system : ∀ r name bufLen, outcome (readSystem r name bufLen) s = expected m name bufLen
  read : ∀ r name bufLen, classOf name = .ordinary ∨ s.session.isKeyAuthenticated = true →
    outcome (Credential.read r name bufLen) s = expected m name bufLen
  refused : ∀ r name credType secret, (m name).isSome = true → secret ≠ [] → r.alloc = true →
    outcome (create r name credType secret) s = .error .eexist
  listed : ∃ l, outcome (list credstoreMax) s = .ok l ∧ l.length ≤ credstoreMax ∧
    (l.map Info.name).Nodup ∧
    ∀ name credType len, (∃ i ∈ l, i.name = name ∧ i.credType = credType ∧ i.secretLen = len) ↔
      ∃ secret, m name = some (credType, secret) ∧ secret.length = len

/-! ## The slots hold the map -/

structure Holds (slots : List (Option Entry)) (m : Map) : Prop where
  length : slots.length = credstoreMax
  unique : ∀ i j e f, get slots i = some e → get slots j = some f → e.name = f.name → i = j
  spec : ∀ name p, m name = some p ↔
    ∃ i e, get slots i = some e ∧ e.name = name ∧ (e.credType, e.secret) = p
  fits : ∀ i e, get slots i = some e → e.Fits

variable {m : Map} {name : CString} {e : Entry}

section Holds

variable {slots : List (Option Entry)} {i : Nat}

lemma holds_empty : Holds (replicate credstoreMax none) fun _ => none := by
  have hget : ∀ i (e : Entry), get (replicate credstoreMax none) i = some e → False := by
    intro i e h
    rw [get_replicate_none] at h
    cases h
  refine ⟨length_replicate, ?_, ?_, ?_⟩
  · intro i j e f hi
    exact (hget i e hi).elim
  · intro name p
    constructor
    · intro h
      cases h
    · rintro ⟨i, e, hi, -⟩
      exact (hget i e hi).elim
  · intro i e hi
    exact (hget i e hi).elim

lemma findByName_eq_some (h : findByName slots name = some (i, e)) :
    get slots i = some e ∧ e.name = name :=
  ⟨(firstWith_eq_some h).1, of_decide_eq_true (firstWith_eq_some h).2⟩

section

variable (h : Holds slots m)
include h

lemma Holds.of_find (hfind : findByName slots name = some (i, e)) :
    m name = some (e.credType, e.secret) :=
  (h.spec name _).mpr ⟨i, e, (findByName_eq_some hfind).1, (findByName_eq_some hfind).2, rfl⟩

lemma Holds.of_find_none (hfind : findByName slots name = none) : m name = none := by
  cases hm : m name with
  | none => rfl
  | some p =>
    obtain ⟨i, e, hi, hname, -⟩ := (h.spec name p).mp hm
    obtain ⟨j, f, hj⟩ := exists_firstWith (p := fun e => e.name = name) hi (decide_eq_true hname)
    rw [findByName, hj] at hfind
    cases hfind

lemma Holds.isSome_find (name : CString) : (findByName slots name).isSome = (m name).isSome := by
  cases hfind : findByName slots name with
  | none =>
    rw [h.of_find_none hfind]
    rfl
  | some p =>
    rw [h.of_find hfind]
    rfl

lemma Holds.length_le : slots.reduceOption.length ≤ credstoreMax :=
  h.length ▸ reduceOption_length_le slots

lemma Holds.set (hi : i < slots.length) {o : Option Entry}
    (honly : ∀ j f, get slots j = some f → f.name = name → j = i)
    (hthere : ∀ f, get slots i = some f → f.name = name)
    (hnew : ∀ f, o = some f → f.name = name ∧ f.Fits) :
    Holds (slots.set i o) (update m name (o.map fun f => (f.credType, f.secret))) := by
  refine ⟨?_, ?_, ?_, ?_⟩
  · rw [length_set, h.length]
  · intro j k f g hj hk hfg
    rcases of_get_set hj with ⟨hji, ho⟩ | ⟨hji, hj'⟩
    · rcases of_get_set hk with ⟨hki, -⟩ | ⟨hki, hk'⟩
      · rw [hji, hki]
      · exact absurd (honly k g hk' (hfg.symm.trans (hnew f ho).1)) hki
    · rcases of_get_set hk with ⟨-, ho⟩ | ⟨-, hk'⟩
      · exact absurd (honly j f hj' (hfg.trans (hnew g ho).1)) hji
      · exact h.unique j k f g hj' hk' hfg
  · intro name' p
    rcases Decidable.em (name' = name) with rfl | hne
    · rw [update_self]
      constructor
      · intro ho
        obtain ⟨f, hf, rfl⟩ := Option.map_eq_some_iff.mp ho
        exact ⟨i, f, by rw [get_set_self hi, hf], (hnew f hf).1, rfl⟩
      · rintro ⟨j, f, hj, hname, rfl⟩
        rcases of_get_set hj with ⟨-, ho⟩ | ⟨hji, hj⟩
        · rw [ho, Option.map_some]
        · exact absurd (honly j f hj hname) hji
    · rw [update_of_ne hne, h.spec name' p]
      constructor
      · rintro ⟨j, f, hj, hname, hp⟩
        have hji : j ≠ i := by
          rintro rfl
          exact hne (hname.symm.trans (hthere f hj))
        exact ⟨j, f, by rw [get_set_of_ne hji, hj], hname, hp⟩
      · rintro ⟨j, f, hj, hname, hp⟩
        rcases of_get_set hj with ⟨-, ho⟩ | ⟨-, hj⟩
        · exact absurd (hname.symm.trans (hnew f ho).1) hne
        · exact ⟨j, f, hj, hname, hp⟩
  · intro j f hj
    rcases of_get_set hj with ⟨-, ho⟩ | ⟨-, hj⟩
    · exact (hnew f ho).2
    · exact h.fits j f hj

lemma Holds.only (hfind : findByName slots name = some (i, e)) :
    i < slots.length ∧ (∀ j f, get slots j = some f → f.name = name → j = i) ∧
      ∀ f, get slots i = some f → f.name = name := by
  obtain ⟨hi, hname⟩ := findByName_eq_some hfind
  refine ⟨lt_of_get hi, ?_, ?_⟩
  · intro j f hj hf
    exact h.unique j i f e hj hi (hf.trans hname.symm)
  · intro f hf
    rw [hi] at hf
    cases hf
    exact hname

end

end Holds

/-! ## What the slots hold is what callers see -/

variable {s : State}

section Presents

lemma readSystem_outcome (h : Holds s.slots m) (r : Around) (name : CString) (bufLen : Nat) :
    outcome (readSystem r name bufLen) s = expected m name bufLen := by
  apply Ends.outcome
  apply Ends.orThrow_bind
  · intro hfind
    rw [expected, h.of_find_none hfind]
  · rintro ⟨i, e⟩ hfind
    show Except.ok _ = _
    rw [expected, h.of_find hfind]

lemma Holds.info_name {slots : List (Option Entry)} (h : Holds slots m)
    (he : e ∈ slots.reduceOption) : e.info.name = e.name := by
  obtain ⟨i, hi⟩ := mem_reduceOption.mp he
  exact CString.take_of_length_le (Nat.le_sub_one_of_lt (h.fits i e hi).name)

lemma Holds.presents (h : Holds s.slots m) : Presents s m where
  found name := congrArg Except.ok (h.isSome_find name)
  system := readSystem_outcome h
  read r name bufLen hmay := by
    rw [← readSystem_outcome h r name bufLen]
    apply Ends.outcome
    apply Ends.failIf_bind
    · intro hfail
      obtain ⟨hclass, hkey⟩ := of_decide_eq_true hfail
      rcases hmay with hmay | hmay
      · rw [hclass] at hmay
        cases hmay
      · rw [hkey] at hmay
        cases hmay
    · intro _
      unfold Ends outcome
      cases readSystem r name bufLen s <;> rfl
  refused r name credType secret hm hsecret halloc := by
    apply Ends.outcome
    refine .pass (isEmpty_eq_false_iff.mpr hsecret) ?_
    refine .pass (by rw [halloc]; rfl) ?_
    refine .guard fun hnone => ?_
    rw [h.isSome_find name, hm] at hnone
    cases hnone
  listed := by
    have hlist : outcome (list credstoreMax) s = .ok (s.entries.map Entry.info) := by
      show Except.ok _ = _
      rw [State.entries, take_of_length_le h.length_le]
    refine ⟨s.entries.map Entry.info, hlist, ?_, ?_, ?_⟩
    · rw [length_map]
      exact h.length_le
    · have hnames : (s.entries.map Entry.info).map Info.name = s.entries.map Entry.name := by
        rw [map_map]
        exact map_congr_left fun e => h.info_name
      rw [hnames]
      exact nodup_reduceOption h.unique
    · intro name credType len
      constructor
      · rintro ⟨_, hmem, hname, rfl, rfl⟩
        obtain ⟨e, he, rfl⟩ := mem_map.mp hmem
        obtain ⟨i, hi⟩ := mem_reduceOption.mp he
        rw [h.info_name he] at hname
        exact ⟨e.secret, (h.spec name _).mpr ⟨i, e, hi, hname, rfl⟩, rfl⟩
      · rintro ⟨secret, hm, rfl⟩
        obtain ⟨i, e, hi, hname, hp⟩ := (h.spec name _).mp hm
        obtain ⟨rfl, rfl⟩ := Prod.mk.inj hp
        have he : e ∈ s.entries := mem_reduceOption.mpr ⟨i, hi⟩
        exact ⟨e.info, mem_map_of_mem he, (h.info_name he).trans hname, rfl, rfl⟩

end Presents

/-! ## The changes -/

def Change.Fits : Change → Prop
  | .create name _ secret => name.bytes.length < nameSize ∧ secret.length ≤ credMaxSecret
  | .rotate _ secret => secret.length ≤ credMaxSecret
  | .revoke _ => True

/-- The image on disk is that of the slots; before the first change there is none. -/
def Saved (disk : Option (List UInt8)) (slots : List (Option Entry)) : Prop :=
  match disk with
  | some image => ImageOf image slots.reduceOption
  | none => slots.reduceOption = []

structure Keeps (s : State) (m : Map) : Prop where
  holds : Holds s.slots m
  saved : Saved s.disk s.slots
  loading : s.loading = false

section Steps

variable {r : Around} {secret : List UInt8}

lemma Holds.fits_entries {slots : List (Option Entry)} (h : Holds slots m) :
    ∀ e ∈ slots.reduceOption, e.Fits := by
  intro e he
  obtain ⟨i, hi⟩ := mem_reduceOption.mp he
  exact h.fits i e hi

lemma keeps_save (h : Holds s.slots m) (hloading : s.loading = false)
    (hwritten : r.written = true) : Keeps (save r s) m := by
  unfold save
  rw [hloading, hwritten]
  refine ⟨h, ⟨Region.length_load, ?_, ?_⟩, rfl⟩
  · rw [Region.take_load (Nat.le_add_right _ _)]
    exact Region.load_store_self
  · intro buf hbuf k e hk
    rw [Region.length_load] at hbuf
    have he := h.fits_entries e (mem_of_getElem? hk)
    have hlt : k < s.entries.length := (List.getElem?_eq_some_iff.mp hk).1
    have hat : EntryAt (writeEntries s.buf 0 s.entries) (0 + k) e :=
      entryAt_writeEntries h.fits_entries hk
    rw [Nat.zero_add] at hat
    refine hat.congr he fun i hl hr => ?_
    have hbase : entryBase k + entrySize ≤ hdrSize + s.entries.length * entrySize :=
      entryBase_lt hlt
    have hhdr : hdrSize ≤ entryBase k := Nat.le_add_right _ _
    rw [Region.eq_of_load_eq hbuf (Nat.zero_le i) (by omega)]
    apply Region.store_of_le
    rw [length_header]
    omega

lemma create_ends (h : Keeps s m) (hwritten : r.written = true) {credType : CredType}
    (hname : name.bytes.length < nameSize) (hsecret : secret.length ≤ credMaxSecret) :
    Ends (create r name credType secret) s
      (fun _ s' => Keeps s' ((Change.create name credType secret).apply m)) fun _ _ => True := by
  refine .guard fun hnonempty => ?_
  refine .guard fun _ => ?_
  refine .guard fun hfind => ?_
  refine .fetch fun i hfree => ?_
  obtain ⟨hi, hnone⟩ := firstFree_eq_some hfree
  rw [CString.take_of_length_le (Nat.le_sub_one_of_lt hname)]
  refine keeps_save ?_ h.loading hwritten
  apply h.holds.set hi
  · intro j f hj hf
    have hsome := (h.holds.spec name _).mpr ⟨j, f, hj, hf, rfl⟩
    rw [h.holds.isSome_find name, hsome] at hfind
    cases hfind
  · intro f hf
    rw [hnone] at hf
    cases hf
  · rintro f ⟨⟩
    exact ⟨rfl, hname, length_pos_of_ne_nil (isEmpty_eq_false_iff.mp hnonempty), hsecret⟩

lemma rotate_ends (h : Keeps s m) (hwritten : r.written = true)
    (hsecret : secret.length ≤ credMaxSecret) :
    Ends (rotate r name secret) s (fun _ s' => Keeps s' ((Change.rotate name secret).apply m))
      fun _ _ => True := by
  refine .guard fun hnonempty => ?_
  refine .guard fun _ => ?_
  refine .fetch fun ⟨i, e⟩ hfind => ?_
  obtain ⟨hi, hname⟩ := findByName_eq_some hfind
  obtain ⟨hlt, honly, hthere⟩ := h.holds.only hfind
  rw [Change.apply, h.holds.of_find hfind]
  refine keeps_save ?_ h.loading hwritten
  apply h.holds.set hlt honly hthere
  rintro f ⟨⟩
  have hpos := length_pos_of_ne_nil (isEmpty_eq_false_iff.mp hnonempty)
  exact ⟨hname, (h.holds.fits i e hi).name, hpos, hsecret⟩

lemma revoke_ends (h : Keeps s m) (hwritten : r.written = true) :
    Ends (revoke r name) s (fun _ s' => Keeps s' ((Change.revoke name).apply m))
    fun _ _ => True := by
  refine .guard fun _ => ?_
  refine .fetch fun ⟨i, e⟩ hfind => ?_
  obtain ⟨hlt, honly, hthere⟩ := h.holds.only hfind
  refine keeps_save ?_ h.loading hwritten
  apply h.holds.set hlt honly hthere
  rintro f ⟨⟩

lemma Keeps.step (h : Keeps s m) {c : Change} (hfits : c.Fits)
    (hok : (outcome (c.exec r) s).isOk = true) (hwritten : r.written = true) :
    Keeps (final (c.exec r) s) (c.apply m) := by
  have hends : Ends (c.exec r) s (fun _ s' => Keeps s' (c.apply m)) fun _ _ => True := by
    cases c with
    | create name credType secret => exact create_ends h hwritten hfits.1 hfits.2
    | rotate name secret => exact rotate_ends h hwritten hfits
    | revoke name => exact revoke_ends h hwritten
  obtain ⟨-, -, hkeeps⟩ := hends.of_isOk hok
  exact hkeeps

end Steps

lemma State.Fresh.keeps (h : s.Fresh) : Keeps s fun _ => none := by
  refine ⟨?_, ?_, h.loading⟩
  · rw [h.slots]
    exact holds_empty
  · rw [h.disk, h.slots]
    exact reduceOption_replicate_none

/-! ## Loading -/

def Entry.replayed (e : Entry) (r : Around) : Entry :=
  { e with createdAt := r.now, lastAccessed := 0, accessCount := 0 }

def replayed (rs : Nat → Around) (es : List Entry) (k : Nat) : List Entry :=
  (es.mapIdx fun n e => e.replayed (rs n)).take k

section Load

variable {es : List Entry} {rs : Nat → Around} {k : Nat} {image : List UInt8}

lemma getElem?_replayed_of_lt {n : Nat} (h : n < k) :
    (replayed rs es k)[n]? = (es[n]?).map fun e => e.replayed (rs n) := by
  rw [replayed, getElem?_take_of_lt h, getElem?_mapIdx]

lemma length_replayed (h : k ≤ es.length) : (replayed rs es k).length = k := by
  rw [replayed, length_take, length_mapIdx, Nat.min_eq_left h]

lemma replayed_succ (h : es[k]? = some e) :
    replayed rs es (k + 1) = replayed rs es k ++ [e.replayed (rs k)] := by
  rw [replayed, take_add_one, getElem?_mapIdx, h]
  rfl

lemma findByName_replayed (hnodup : (es.map Entry.name).Nodup) (hk : es[k]? = some e) :
    findByName (packed (replayed rs es k) credstoreMax) e.name = none := by
  cases hfind : findByName (packed (replayed rs es k) credstoreMax) e.name with
  | none => rfl
  | some p =>
    obtain ⟨hget, hname⟩ := findByName_eq_some hfind
    rw [get_packed] at hget
    have hlt : p.1 < k := by
      have hlen := (List.getElem?_eq_some_iff.mp hget).1
      rw [replayed, length_take] at hlen
      omega
    rw [getElem?_replayed_of_lt hlt] at hget
    obtain ⟨f, hf, hp⟩ := Option.map_eq_some_iff.mp hget
    have hsame : f.name = e.name := by
      rw [← hname, ← hp]
      rfl
    exact absurd (Keyed.index_unique hnodup hf hk hsame) (Nat.ne_of_lt hlt)

/-- The invariant of the loop of `anx_credstore_load`: the first `k` credentials are in the store,
and the buffer still holds the whole image. -/
structure Loading (rs : Nat → Around) (es : List Entry) (k : Nat) (s : State) : Prop where
  slots : s.slots = packed (replayed rs es k) credstoreMax
  loading : s.loading = true
  image : ∀ n e, es[n]? = some e → EntryAt s.buf n e

/-- What the load is given: an image whose entries fit, with distinct names, and memory for each of
them. -/
structure Loadable (rs : Nat → Around) (es : List Entry) : Prop where
  count : es.length ≤ credstoreMax
  fits : ∀ e ∈ es, e.Fits
  nodup : (es.map Entry.name).Nodup
  alloc : ∀ n, (rs n).alloc = true

lemma create_replayed (hes : Loadable rs es) (hs : Loading rs es k s) (hk : es[k]? = some e) :
    Succeeds (create (rs k) e.name e.credType e.secret) s fun _ => Loading rs es (k + 1) := by
  have hfits := hes.fits e (mem_of_getElem? hk)
  have hlt : k < es.length := (List.getElem?_eq_some_iff.mp hk).1
  have hlen : (replayed rs es k).length = k := length_replayed (Nat.le_of_lt hlt)
  have hroom : (replayed rs es k).length < credstoreMax := by
    rw [hlen]
    exact Nat.lt_of_lt_of_le hlt hes.count
  refine .pass (isEmpty_eq_false_iff.mpr (length_pos_iff.mp hfits.nonempty)) ?_
  refine .pass (by rw [hes.alloc k]; rfl) ?_
  apply Ends.get_bind
  rw [hs.slots, findByName_replayed hes.nodup hk, firstFree_packed hroom, hlen]
  refine .pass rfl ?_
  apply Ends.orThrow_bind nofun
  rintro _ ⟨⟩
  apply Ends.modify
  rw [CString.take_of_length_le (Nat.le_sub_one_of_lt hfits.name)]
  -- nothing is saved while the image is replayed
  have hsave : ∀ t : State, t.loading = true → save (rs k) t = t := fun t ht => if_pos ht
  rw [hsave (s.setSlot k _) hs.loading]
  refine ⟨?_, hs.loading, hs.image⟩
  show s.slots.set k _ = _
  have hset := set_packed hroom (e.replayed (rs k))
  rw [hlen] at hset
  rw [hs.slots, replayed_succ hk, ← hset]
  rfl

lemma loadEntry_ends (hes : Loadable rs es) (hk : k < es.length) (hs : Loading rs es k s) :
    Succeeds (loadEntry (rs k) k) s fun _ => Loading rs es (k + 1) := by
  have hat : es[k]? = some es[k] := getElem?_eq_getElem hk
  have hfits := hes.fits es[k] (getElem_mem hk)
  have hs' : Loading rs es k (terminateName k s) := by
    refine ⟨hs.slots, hs.loading, ?_⟩
    intro n e hn
    exact (hs.image n e hn).terminate (hes.fits e (mem_of_getElem? hn)) k
  apply Ends.modify_bind
  apply Ends.get_bind
  rw [(hs'.image k es[k] hat).readEntry hfits, replay, if_neg (Nat.not_lt_of_le hfits.secret)]
  apply Ends.discard
  apply Ends.attempt
  exact (create_replayed hes hs' hat).post fun _ _ h => h

lemma image_header {buf : Nat → UInt8} (himage : ImageOf image es)
    (hbuf : Region.load buf 0 image.length = image) (hcount : es.length ≤ credstoreMax) :
    Codec.u32.decode (Region.load buf 0 4) = credDiskMagic ∧ imageCount buf = es.length := by
  have hlen : hdrSize ≤ image.length := by
    rw [himage.length]
    exact Nat.le_add_right _ _
  have hhdr : Region.load buf 0 hdrSize = header es.length := by
    rw [← himage.hdr, ← Region.take_load hlen, hbuf]
  rw [show hdrSize = 4 + (4 + 8) from rfl, Region.load_add, Region.load_add, header, append_assoc,
    append_assoc] at hhdr
  obtain ⟨hmagic, hrest⟩ := append_inj hhdr (by rw [Region.length_load, length_u32])
  obtain ⟨hn, -⟩ := append_inj hrest (by rw [Region.length_load, length_u32])
  have hread : ∀ x, Codec.u32.decode (Codec.u32.encode x) = x := by
    intro x
    have := Codec.u32.decode_encode x []
    rwa [append_nil] at this
  refine ⟨by rw [hmagic, hread], ?_⟩
  have hlt : es.length < UInt32.size := Nat.lt_of_le_of_lt hcount (by decide)
  rw [imageCount, hn, hread, UInt32.toNat_ofNat_of_lt' hlt]

lemma loadImage_ends (hes : Loadable rs es) (himage : ImageOf image es)
    (hs : s.slots = replicate credstoreMax none) : Succeeds (loadImage rs image) s
      fun _ s' => s'.slots = packed (replayed rs es es.length) credstoreMax := by
  have hle : image.length ≤ bufSize := by
    rw [himage.length]
    exact Nat.add_le_add_left (Nat.mul_le_mul_right entrySize hes.count) hdrSize
  have hbuf : Region.load (Region.store s.buf 0 (image.take bufSize)) 0 image.length = image := by
    rw [take_of_length_le hle]
    exact Region.load_store_self
  obtain ⟨hmagic, hcount⟩ := image_header himage hbuf hes.count
  have hok : imageOk image.length (Region.store s.buf 0 (image.take bufSize)) = true := by
    apply decide_eq_true
    rw [hcount, himage.length]
    exact ⟨Nat.le_add_right _ _, hmagic, hes.count, Nat.le_refl _⟩
  let t : State := { s with buf := Region.store s.buf 0 (image.take bufSize) }
  show Ends (if imageOk image.length t.buf then loadEntries rs (imageCount t.buf) else
    pure ⟨⟩) t _ _
  rw [if_pos hok, hcount]
  have hinit : Loading rs es 0 { t with loading := true } := ⟨hs, rfl, himage.entries t.buf hbuf⟩
  have hloop :
    Succeeds ((range es.length).forM fun n => loadEntry (rs n) n) { t with loading := true }
      fun _ => Loading rs es es.length := by
    rw [range_eq_range']
    have hrounds := Ends.forM_range' (n := es.length) hinit
      fun k t _ hk => loadEntry_ends hes (by omega)
    rwa [Nat.zero_add] at hrounds
  exact hloop.next fun _ t ht => ht.slots

lemma holds_replayed {slots : List (Option Entry)} (h : Holds slots m) (rs : Nat → Around) :
    Holds (packed (replayed rs slots.reduceOption slots.reduceOption.length) credstoreMax) m := by
  have hnodup : (slots.reduceOption.map Entry.name).Nodup := nodup_reduceOption h.unique
  have hget : ∀ i e, get (packed (replayed rs slots.reduceOption slots.reduceOption.length)
      credstoreMax) i = some e → ∃ f, slots.reduceOption[i]? = some f ∧ f.replayed (rs i) = e := by
    intro i e hi
    rw [get_packed] at hi
    have hlt := (List.getElem?_eq_some_iff.mp hi).1
    rw [length_replayed (Nat.le_refl _)] at hlt
    rw [getElem?_replayed_of_lt hlt] at hi
    exact Option.map_eq_some_iff.mp hi
  refine ⟨?_, ?_, ?_, ?_⟩
  · apply length_packed
    rw [length_replayed (Nat.le_refl _)]
    exact h.length_le
  · intro i j e f hi hj hname
    obtain ⟨e', hi', rfl⟩ := hget i e hi
    obtain ⟨f', hj', rfl⟩ := hget j f hj
    exact Keyed.index_unique hnodup hi' hj' hname
  · intro name p
    rw [h.spec name p]
    constructor
    · rintro ⟨i, e, hi, hname, hp⟩
      obtain ⟨n, hn⟩ := mem_iff_getElem?.mp (mem_reduceOption.mpr ⟨i, hi⟩)
      refine ⟨n, e.replayed (rs n), ?_, hname, hp⟩
      rw [get_packed, getElem?_replayed_of_lt (List.getElem?_eq_some_iff.mp hn).1, hn,
        Option.map_some]
    · rintro ⟨n, e, hn, hname, hp⟩
      obtain ⟨f, hf, rfl⟩ := hget n e hn
      obtain ⟨i, hi⟩ := mem_reduceOption.mp (mem_of_getElem? hf)
      exact ⟨i, f, hi, hname, hp⟩
  · intro n e hn
    obtain ⟨f, hf, rfl⟩ := hget n e hn
    obtain ⟨hname, hpos, hsecret⟩ := h.fits_entries f (mem_of_getElem? hf)
    exact ⟨hname, hpos, hsecret⟩

lemma holds_load {t : State} (h : Keeps s m) (hdisk : t.disk = s.disk)
    (halloc : ∀ n, (rs n).alloc = true) : Holds (final (load true rs) (init t)).slots m := by
  have hends : Leaves (load true rs) (init t) fun s' => Holds s'.slots m := by
    have hsaved := h.saved
    apply Ends.get_bind
    rw [show (init t).disk = s.disk from hdisk]
    cases hs : s.disk with
    | none =>
      rw [hs] at hsaved
      have hm : m = fun _ => none := by
        funext name
        cases hname : m name with
        | none => rfl
        | some p =>
          obtain ⟨i, e, hi, -⟩ := (h.holds.spec name p).mp hname
          have hmem := mem_reduceOption.mpr ⟨i, hi⟩
          rw [show s.slots.reduceOption = [] from hsaved] at hmem
          cases hmem
      rw [hm]
      exact holds_empty
    | some image =>
      rw [hs] at hsaved
      have hes : Loadable rs s.slots.reduceOption :=
        ⟨h.holds.length_le, h.holds.fits_entries, nodup_reduceOption h.holds.unique, halloc⟩
      refine (loadImage_ends hes hsaved rfl).mono ?_ fun _ _ hfalse => hfalse.elim
      intro _ s' hslots
      rw [hslots]
      exact holds_replayed h.holds rs
  exact hends.final

end Load

/-! ## The store is a persistent map -/

/-- **The credential store is a persistent map**, while names and secrets fit the arrays they are
kept in. -/
theorem credential_store_persistent {s : State} (hs : s.Fresh) {run : List (Change × Around)}
    (hrun : Successful s run) (hfits : ∀ c ∈ run, c.1.Fits) (n : Nat) :
    Presents (storeAt s run n) (mapAt run n) ∧
      ∀ (t : State) (rs : Nat → Around), t.disk = (storeAt s run n).disk →
      (∀ k, (rs k).alloc = true) →
        Presents (final (load true rs) (init t)) (mapAt run n) := by
  have hkeeps : Keeps (storeAt s run n) (mapAt run n) := by
    refine Run.after_related _ _ hs.keeps (fun n c hop ih => ?_) n
    obtain ⟨hok, hwritten⟩ := hrun n c.1 c.2 hop
    exact ih.step (hfits c (mem_of_getElem? hop)) hok hwritten
  refine ⟨hkeeps.holds.presents, ?_⟩
  intro t rs hdisk halloc
  exact (holds_load hkeeps hdisk halloc).presents

def freshStore : State where
  slots := replicate credstoreMax none
  session := logout
  disk := none
  buf := fun _ => 0
  loading := false

lemma freshStore_fresh : freshStore.Fresh :=
  ⟨rfl, rfl, rfl⟩

def calm (now : UInt64) : Around :=
  ⟨now, true, true, true⟩

def tokenRun : List (Change × Around) :=
  [(.create (CString.ofString "token") 1 [1, 2], calm 1),
    (.create (CString.ofString "wifi-pass") 4 [3], calm 2),
    (.rotate (CString.ofString "token") [4, 5, 6], calm 3),
    (.revoke (CString.ofString "token"), calm 4)]

/-- A token that was written and rotated is there again after a reboot. -/
theorem credential_store_persistent_token :
    Presents (storeAt freshStore tokenRun 3) (mapAt tokenRun 3) ∧
      ∀ (t : State) (rs : Nat → Around), t.disk = (storeAt freshStore tokenRun 3).disk →
        (∀ k, (rs k).alloc = true) →
        Presents (final (load true rs) (init t)) (mapAt tokenRun 3) := by
  refine credential_store_persistent freshStore_fresh ?_ ?_ 3
  · intro n c r hn
    match n with
    | 0 => cases hn; exact ⟨by decide +kernel, rfl⟩
    | 1 => cases hn; exact ⟨by decide +kernel, rfl⟩
    | 2 => cases hn; exact ⟨by decide +kernel, rfl⟩
    | 3 => cases hn; exact ⟨by decide +kernel, rfl⟩
    | n + 4 => cases hn
  · intro c hc
    simp only [tokenRun, mem_cons, not_mem_nil, or_false] at hc
    rcases hc with rfl | rfl | rfl | rfl
    · exact ⟨by decide +kernel, by decide⟩
    · exact ⟨by decide +kernel, by decide⟩
    · exact (by decide : 3 ≤ 512)
    · trivial

def storeOne (name : CString) (secret : List UInt8) : List (Change × Around) :=
  [(.create name 1 secret, calm 1)]

lemma successful_storeOne {secret : List UInt8}
    (h : (outcome (create (calm 1) name 1 secret) freshStore).isOk = true) :
    Successful freshStore (storeOne name secret) := by
  intro n c r hn
  match n with
  | 0 =>
    cases hn
    exact ⟨h, rfl⟩
  | n + 1 => cases hn

def longName : CString :=
  ⟨replicate 128 97, by decide⟩

/-- A name of 128 bytes is not found again, and a secret of 513 bytes is not restored. -/
theorem credential_store_not_persistent :
    (∃ run, Successful freshStore run ∧ ¬ Presents (storeAt freshStore run 1) (mapAt run 1)) ∧
      ∃ run, Successful freshStore run ∧
        ¬ Presents (final (load true fun _ => calm 2) (init (storeAt freshStore run 1)))
        (mapAt run 1) := by
  constructor
  · refine ⟨storeOne longName [1], successful_storeOne (by decide +kernel), ?_⟩
    intro h
    have hfound := h.found longName
    exact absurd hfound (by decide +kernel)
  · refine ⟨storeOne (CString.ofString "key") (replicate 513 7),
      successful_storeOne (by decide +kernel), ?_⟩
    intro h
    have hread := h.system (calm 3) (CString.ofString "key") 0
    exact absurd hread (by decide +kernel)

end Anunix.Credential
