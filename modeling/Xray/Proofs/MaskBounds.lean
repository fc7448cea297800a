import Xray.Proofs.Mask

/-!
# Which received datagrams the masks can be run on

`Group::open` compares the length of a datagram with the sum of the header
sizes once, before the first mask. An AES mask also takes a tag off the end, so
a mask inside it may be given a region shorter than its own header: the original
mask then reads past the region, and a header mask answers with a range that
ends before it starts, which is a slice out of bounds for whoever takes it.

Whether that happens depends on lengths alone. `Masks.reach` walks the masks
with nothing but the length of a datagram and says how far the most favourable
datagram of that length comes. Every datagram is dropped earlier or comes
exactly so far (`Masks.open_within`), and some datagram does come so far
(`Masks.exists_attains`): whoever holds the key can seal any region in an AES
mask. Which mask lists are safe at every length is then a condition on sizes
and tags, `Masks.sheltered`.
-/

namespace Xray.Kcp

open Ascii Bytes List

/-- What opening gives: a range to go on with or none, and the buffer, or a
failed bounds check. -/
abbrev Opened := Except Panic (Option (Nat × Nat) × Bytes)

/-- Nothing failed, and a range that is given lies inside the datagram. -/
def WellOpened (datagram : Bytes) : Opened → Prop
  | .error _ => False
  | .ok (none, _) => True
  | .ok (some (start, stop), buf) =>
    start ≤ stop ∧ stop ≤ datagram.length ∧ buf.length = datagram.length

/-- How far a region of some length comes: dropped, on to a range of some length
or to one that ends before it starts, or to a failed bounds check. -/
inductive Reach where
  | dropped
  | range (length : Nat)
  | inverted
  | panics
deriving DecidableEq

def Reach.safe : Reach → Bool
  | .dropped | .range _ => true
  | .inverted | .panics => false

variable {A : AesGcm}

/-- A mask that puts a header in front and checks nothing. -/
def Legacy.isHeader : Legacy A → Bool
  | .original | .aes _ => false
  | _ => true

/-- How far a region of this length comes through a mask when it passes the
mask's check, if one of its length can. -/
def Legacy.reach (mask : Legacy A) (length : Nat) : Reach :=
  match mask with
  | .original =>
    if length < originalLen then .panics
    else if length - originalLen < 65536 then .range (length - originalLen)
    else .dropped
  | .aes _ =>
    if length < nonceLen + tagLen then .dropped else .range (length - nonceLen - tagLen)
  | mask => if length < mask.size then .inverted else .range (length - mask.size)

def Group.reachFrom : List (Legacy A) → Nat → Reach
  | [], length => .range length
  | mask :: rest, length =>
    match mask.reach length with
    | .range length => reachFrom rest length
    | .inverted => if rest.isEmpty then .inverted else .panics
    | reach => reach

/-- A group takes a range that ends before it starts for an empty one, which is
too short for any mask. -/
def Group.reach (group : Group A) : Reach → Reach
  | .range length =>
    if group.isEmpty then .range length
    else if length < size group then .dropped
    else reachFrom group.reverse length
  | .inverted => if group.isEmpty then .inverted else .dropped
  | reach => reach

def Masks.reach (masks : Masks A) (length : Nat) : Reach :=
  Group.reach masks.inner (Group.reach masks.outer (.range length))

/-! ## No datagram comes further -/

/-- The result of opening in a buffer of `n` bytes is no worse than `reach`. -/
def Within (n : Nat) (reach : Reach) : Opened → Prop
  | .error _ => reach = .panics
  | .ok (none, _) => True
  | .ok (some (start, stop), buf) =>
    buf.length = n ∧ stop ≤ n ∧
      reach = if start ≤ stop then .range (stop - start) else .inverted

namespace Legacy

/-- A range that the original mask gives has a length it could write. -/
lemma openOriginal_within (region : Bytes) :
    Within region.length ((original : Legacy A).reach region.length) (openOriginal region) := by
  have hreach : (original : Legacy A).reach region.length =
      if region.length < originalLen then .panics
      else if region.length - originalLen < 65536 then .range (region.length - originalLen)
      else .dropped := rfl
  simp only [openOriginal, length_foldl_xorBack]
  generalize hframe : (cascade region.length).reverse.foldl xorBack region = frame
  have hlen : frame.length = region.length := by rw [← hframe, length_foldl_xorBack]
  have hlt : ofBe ((frame.drop 4).take 2) < 65536 :=
    Nat.lt_of_lt_of_le (ofBe_lt _) (Nat.pow_le_pow_right (by omega) (length_take_le ..))
  by_cases hshort : region.length < originalLen
  · rw [hreach, if_pos hshort]
    split
    · rfl
    split
    · trivial
    · rfl
  · have hfour : ¬ region.length < 4 := fun h => hshort (Nat.lt_of_lt_of_le h (by decide))
    rw [if_neg hfour]
    split
    · trivial
    split
    · next hlength =>
      refine ⟨hlen, Nat.le_refl _, ?_⟩
      rw [hreach, if_neg hshort, if_pos (by omega), if_pos (by omega)]
    · trivial

lemma openAes_within (hA : A.Lawful) (cipher : A.Key) (region : Bytes) :
    Within region.length ((aes cipher).reach region.length) (.ok (openAes cipher region)) := by
  rw [openAes]
  split
  · trivial
  next hlen =>
  dsimp only
  split
  · trivial
  next text hopen =>
  have htext := hA.text_length cipher (region.take nonceLen) text
  rw [(hA.opens ..).mp hopen] at htext
  simp only [length_take, length_drop] at htext
  refine ⟨?_, by omega, ?_⟩
  · simp only [length_append, length_take, length_drop]
    omega
  show (if region.length < nonceLen + tagLen then Reach.dropped else _) = _
  rw [if_neg hlen, if_pos (by omega)]
  exact congrArg Reach.range (by omega)

lemma open_within (hA : A.Lawful) (mask : Legacy A) (region : Bytes) :
    Within region.length (mask.reach region.length) (mask.open region) := by
  have hheader : ∀ n : Nat, Within region.length
      (if region.length < n then .inverted else .range (region.length - n))
      (.ok (some (n, region.length), region)) := fun n => by
    refine ⟨rfl, Nat.le_refl _, ?_⟩
    split
    · rw [if_neg (by omega)]
    · rw [if_pos (by omega)]
  cases mask with
  | original => exact openOriginal_within region
  | aes cipher => exact openAes_within hA cipher region
  | _ => exact hheader _

end Legacy

namespace Group

variable {start stop : Nat}

/-- The loop of `Group::open`: each turn moves to the range the mask gave, in a
buffer of the same length. -/
lemma openFrom_within (hA : A.Lawful) (masks : List (Legacy A)) (buf : Bytes) (hle : start ≤ stop)
    (hstop : stop ≤ buf.length) :
    Within buf.length (reachFrom masks (stop - start)) (openFrom masks buf start stop) := by
  induction masks generalizing buf start stop with
  | nil => exact ⟨rfl, hstop, by rw [if_pos hle]; rfl⟩
  | cons mask rest ih =>
    have hregion : ((buf.take stop).drop start).length = stop - start := by
      rw [length_drop, length_take, Nat.min_eq_left hstop]
    have hmask := mask.open_within hA ((buf.take stop).drop start)
    rw [hregion] at hmask
    rw [openFrom, if_neg (by omega), reachFrom]
    generalize mask.open ((buf.take stop).drop start) = opened at hmask ⊢
    rcases opened with panic | ⟨_ | ⟨a, b⟩, region⟩
    · rw [show mask.reach (stop - start) = .panics from hmask]
      rfl
    · trivial
    obtain ⟨hlen, hb, hreach⟩ := hmask
    have hbuf : (buf.take start ++ region ++ buf.drop stop).length = buf.length := by
      simp only [length_append, length_take, length_drop]
      omega
    rw [hreach]
    by_cases hab : a ≤ b
    · have hle' : start + a ≤ start + b := by omega
      have hrest := ih (buf.take start ++ region ++ buf.drop stop) hle' (by omega)
      rw [hbuf, Nat.add_sub_add_left] at hrest
      rw [if_pos hab]
      exact hrest
    rw [if_neg hab]
    cases rest with
    | nil =>
      refine ⟨hbuf, by omega, ?_⟩
      show Reach.inverted = if start + a ≤ start + b then _ else _
      rw [if_neg (by omega)]
    | cons next rest =>
      dsimp only
      rw [openFrom, if_pos (Or.inl (by omega))]
      rfl

lemma open_within (hA : A.Lawful) (group : Group A) (buf : Bytes) (hle : start ≤ stop)
    (hstop : stop ≤ buf.length) :
    Within buf.length (reach group (.range (stop - start))) (Group.open group buf start stop) := by
  rw [reach, Group.open]
  by_cases hempty : group.isEmpty
  · rw [if_pos hempty, if_pos hempty]
    exact ⟨rfl, hstop, by rw [if_pos hle]⟩
  rw [if_neg hempty, if_neg hempty]
  by_cases hsize : stop - start < size group
  · rw [if_pos hsize, if_pos hsize]
    trivial
  · rw [if_neg hsize, if_neg hsize]
    exact openFrom_within hA group.reverse buf hle hstop

lemma size_pos {group : Group A} (hne : group ≠ []) : 0 < size group := by
  cases group with
  | nil => exact absurd rfl hne
  | cons mask rest =>
    have := mask.size_pos
    rw [size_cons]
    omega

lemma open_of_inverted (group : Group A) (buf : Bytes) (hlt : stop < start) :
    Group.open group buf start stop =
      .ok (if group.isEmpty then some (start, stop) else none, buf) := by
  rw [Group.open]
  split
  · rfl
  next hempty =>
  rw [if_pos]
  have hpos : 0 < size group := size_pos (by simpa using hempty)
  omega

lemma open_within_of_inverted (group : Group A) (buf : Bytes) (hlt : stop < start)
    (hstop : stop ≤ buf.length) :
    Within buf.length (reach group .inverted) (Group.open group buf start stop) := by
  rw [open_of_inverted group buf hlt, reach]
  split
  · exact ⟨rfl, hstop, by rw [if_neg (by omega)]⟩
  · trivial

end Group

lemma Masks.open_within (hA : A.Lawful) (masks : Masks A) (datagram : Bytes) :
    Within datagram.length (masks.reach datagram.length) (masks.open datagram) := by
  have houter := Group.open_within hA masks.outer datagram (Nat.zero_le _) (Nat.le_refl _)
  rw [Nat.sub_zero] at houter
  rw [Masks.open, Masks.reach]
  generalize Group.open masks.outer datagram 0 datagram.length = opened at houter ⊢
  rcases opened with panic | ⟨_ | ⟨start, stop⟩, buf⟩
  · rw [show Group.reach masks.outer (.range datagram.length) = .panics from houter]
    rfl
  · trivial
  obtain ⟨hlen, hstop, hreach⟩ := houter
  rw [hreach, ← hlen]
  split
  · next hle => exact Group.open_within hA masks.inner buf hle (by omega)
  · next hlt => exact Group.open_within_of_inverted masks.inner buf (by omega) (by omega)

lemma WellOpened.of_within {datagram : Bytes} {reach : Reach} {opened : Opened}
    (h : Within datagram.length reach opened) (hsafe : reach.safe) :
    WellOpened datagram opened := by
  rcases opened with panic | ⟨_ | ⟨start, stop⟩, buf⟩
  · rw [show reach = .panics from h] at hsafe
    cases hsafe
  · trivial
  obtain ⟨hlen, hstop, rfl⟩ := h
  refine ⟨?_, hstop, hlen⟩
  by_contra hle
  rw [if_neg hle] at hsafe
  cases hsafe

/-! ## Some datagram comes as far -/

/-- The result of opening is `reach`, with `content` for the bytes of a range. -/
def Attains (content : Bytes) : Reach → Opened → Prop
  | .dropped, _ => True
  | .range _, opened => ∃ pre post, opened =
      .ok (some (pre.length, pre.length + content.length), pre ++ content ++ post)
  | .inverted, opened => ∃ start stop buf, opened = .ok (some (start, stop), buf) ∧ stop < start
  | .panics, opened => ∃ panic, opened = .error panic

namespace Legacy

/-- The cases of `reach`: what is left of the region where one is, and which masks
run short of theirs. -/
lemma reach_cases (mask : Legacy A) (n : Nat) :
    mask.reach n = .dropped ∨ (∃ k, mask.reach n = .range k ∧ mask.size + k + mask.tail = n ∧
        (mask = original → k < 65536)) ∨
      (mask.reach n = .inverted ∧ mask.isHeader ∧ n < mask.size ∧
        ∀ region, mask.open region = .ok (some (mask.size, region.length), region)) ∨
      (mask.reach n = .panics ∧ mask = original ∧ n < originalLen) := by
  cases mask with
  | original =>
    simp only [reach]
    split
    · next h => exact .inr (.inr (.inr ⟨rfl, trivial, h⟩))
    split
    · next h => exact .inr (.inl ⟨_, rfl, by simp only [size, tail]; omega, fun _ => h⟩)
    · exact .inl rfl
  | aes cipher =>
    simp only [reach]
    split
    · exact .inl rfl
    · exact .inr (.inl ⟨_, rfl, by simp only [size, tail]; omega, fun h => by cases h⟩)
  | _ =>
    simp only [reach]
    split
    · next h => exact .inr (.inr (.inl ⟨rfl, rfl, h, fun _ => rfl⟩))
    · exact .inr (.inl ⟨_, rfl, by simp only [tail]; omega, fun h => by cases h⟩)

/-- A region of less than six bytes that the original mask reads past: shorter
than the checksum, or with a right checksum of what follows it. -/
lemma exists_openOriginal_error {n : Nat} (h : n < originalLen) :
    ∃ region : Bytes, region.length = n ∧ openOriginal region = .error .index := by
  by_cases hfour : n < 4
  · refine ⟨List.replicate n 0, length_replicate, ?_⟩
    simp only [openOriginal, length_foldl_xorBack, length_replicate]
    rw [if_pos hfour]
  let rest : Bytes := List.replicate (n - 4) 0
  let frame := toBe 4 (fnv1a rest).toNat ++ rest
  have hlen : frame.length = n := by
    simp only [frame, rest, length_append, length_toBe, length_replicate]
    omega
  refine ⟨(cascade frame.length).foldl xorBack frame, by rw [length_foldl_xorBack, hlen], ?_⟩
  rw [openOriginal_cascade, hlen, if_neg hfour, take_four_checksum, drop_four_checksum,
    if_neg (by simp), if_pos h]

end Legacy

namespace Group

/-- A region that comes as far as its length allows, built from the inside out:
any content of the right length can be sealed by the masks it passes. -/
lemma exists_openFrom_attains (hA : A.Lawful) (masks : List (Legacy A)) (n : Nat)
    (content : Bytes) (hcontent : ∀ k, reachFrom masks n = .range k → content.length = k) :
    ∃ region : Bytes, region.length = n ∧ ∀ pre post, Attains content (reachFrom masks n)
      (openFrom masks (pre ++ region ++ post) pre.length (pre.length + n)) := by
  induction masks generalizing n with
  | nil =>
    have hlen := hcontent n rfl
    exact ⟨content, hlen, fun pre post => ⟨pre, post, by rw [hlen]; rfl⟩⟩
  | cons mask rest ih =>
    rw [reachFrom] at hcontent ⊢
    rcases mask.reach_cases n with h | ⟨k, h, hn, hk⟩ | ⟨h, -, hn, hopen⟩ | ⟨h, rfl, hn⟩
    · rw [h]
      exact ⟨List.replicate n 0, length_replicate, fun _ _ => trivial⟩
    · rw [h] at hcontent ⊢
      obtain ⟨inside, rfl, hinside⟩ := ih k hcontent
      have hopens := Legacy.opens_seal hA mask zeroDraw inside hk
      have hlen := Legacy.length_seal hA mask zeroDraw inside
      refine ⟨_, hlen.trans hn, fun pre post => ?_⟩
      obtain ⟨pre', post', hstep⟩ := openFrom_of_opens hopens rest pre post
      rw [← hn, ← hlen, hstep]
      exact hinside pre' post'
    · rw [h]
      refine ⟨List.replicate n 0, length_replicate, fun pre post => ?_⟩
      have hstep := openFrom_cons mask rest pre (List.replicate n 0) post
      rw [hopen, length_replicate] at hstep
      rw [hstep]
      cases rest with
      | nil => exact ⟨_, _, _, rfl, by omega⟩
      | cons next rest =>
        refine ⟨.slice, ?_⟩
        dsimp only
        rw [openFrom, if_pos (Or.inl (by omega))]
    · rw [h]
      obtain ⟨region, hlen, hopen⟩ := Legacy.exists_openOriginal_error hn
      refine ⟨region, hlen, fun pre post => ⟨.index, ?_⟩⟩
      have hstep := openFrom_cons Legacy.original rest pre region post
      rw [hlen, show Legacy.original.open region = .error .index from hopen] at hstep
      exact hstep

lemma exists_open_attains (hA : A.Lawful) (group : Group A) (n : Nat) (content : Bytes)
    (hcontent : ∀ k, reach group (.range n) = .range k → content.length = k) :
    ∃ region : Bytes, region.length = n ∧ ∀ pre post, Attains content (reach group (.range n))
      (Group.open group (pre ++ region ++ post) pre.length (pre.length + n)) := by
  simp only [reach, Group.open, Nat.add_sub_cancel_left] at hcontent ⊢
  by_cases hempty : group.isEmpty
  · simp only [if_pos hempty] at hcontent ⊢
    have hlen := hcontent n rfl
    exact ⟨content, hlen, fun pre post => ⟨pre, post, by rw [hlen]⟩⟩
  simp only [if_neg hempty] at hcontent ⊢
  by_cases hsize : n < size group
  · simp only [if_pos hsize]
    exact ⟨List.replicate n 0, length_replicate, fun _ _ => trivial⟩
  · simp only [if_neg hsize] at hcontent ⊢
    exact exists_openFrom_attains hA group.reverse n content hcontent

end Group

/-- Some datagram of each length comes as far as `reach` says. -/
lemma Masks.exists_attains (hA : A.Lawful) (masks : Masks A) (n : Nat) :
    ∃ datagram content : Bytes, datagram.length = n ∧
      Attains content (masks.reach n) (masks.open datagram) := by
  have houter : ∀ content : Bytes,
      (∀ k, Group.reach masks.outer (.range n) = .range k → content.length = k) →
      ∃ datagram : Bytes, datagram.length = n ∧ Attains content (Group.reach masks.outer (.range n))
          (Group.open masks.outer datagram 0 datagram.length) := by
    intro content hcontent
    obtain ⟨datagram, hlen, hattains⟩ := Group.exists_open_attains hA masks.outer n content hcontent
    refine ⟨datagram, hlen, ?_⟩
    have h := hattains [] []
    rw [append_nil, length_nil, Nat.zero_add] at h
    rw [hlen]
    exact h
  simp only [Masks.reach, Masks.open]
  cases hreach : Group.reach masks.outer (.range n) with
  | dropped => exact ⟨List.replicate n 0, [], length_replicate, trivial⟩
  | range k =>
    obtain ⟨content, hcontent⟩ : ∃ content : Bytes,
        ∀ m, Group.reach masks.inner (.range k) = .range m → content.length = m := by
      cases Group.reach masks.inner (.range k) with
      | range m => exact ⟨List.replicate m 0, fun _ h => by cases h; exact length_replicate⟩
      | _ => exact ⟨[], fun _ h => by cases h⟩
    obtain ⟨inside, hk, hinside⟩ := Group.exists_open_attains hA masks.inner k content hcontent
    rw [hreach] at houter
    obtain ⟨datagram, hlen, pre, post, hopen⟩ := houter inside (fun m hm => by cases hm; exact hk)
    refine ⟨datagram, content, hlen, ?_⟩
    rw [hopen, hk]
    exact hinside pre post
  | inverted =>
    rw [hreach] at houter
    obtain ⟨datagram, hlen, start, stop, buf, hopen, hlt⟩ := houter [] (fun k h => by cases h)
    refine ⟨datagram, [], hlen, ?_⟩
    rw [hopen]
    dsimp only
    rw [Group.open_of_inverted masks.inner buf hlt, Group.reach]
    split
    · exact ⟨_, _, _, rfl, hlt⟩
    · trivial
  | panics =>
    rw [hreach] at houter
    obtain ⟨datagram, hlen, panic, hopen⟩ := houter [] (fun k h => by cases h)
    refine ⟨datagram, [], hlen, panic, ?_⟩
    rw [hopen]

lemma not_wellOpened_of_attains {datagram content : Bytes} {reach : Reach} {opened : Opened}
    (h : Attains content reach opened) (hbad : reach.safe = false) :
    ¬ WellOpened datagram opened := by
  cases reach with
  | dropped => cases hbad
  | range k => exact absurd hbad (by simp [Reach.safe])
  | inverted =>
    obtain ⟨start, stop, buf, rfl, hlt⟩ := h
    exact fun h => absurd h.1 (by omega)
  | panics =>
    obtain ⟨panic, rfl⟩ := h
    exact fun h => h

/-- Lengths decide: no datagram of a length is mishandled exactly when the walk
over that length is safe. -/
lemma Masks.wellOpened_iff_reach_safe (hA : A.Lawful) (masks : Masks A) (n : Nat) :
    (∀ datagram : Bytes, datagram.length = n → WellOpened datagram (masks.open datagram)) ↔
      (masks.reach n).safe := by
  constructor
  · intro h
    by_contra hbad
    obtain ⟨datagram, content, hlen, hattains⟩ := masks.exists_attains hA n
    exact not_wellOpened_of_attains hattains (by simpa using hbad) (h datagram hlen)
  · rintro hsafe datagram rfl
    exact .of_within (masks.open_within hA datagram) hsafe

/-! ## Mask lists that are safe at every length -/

/-- Of masks outermost first, with `tags` bytes of tags already taken: each mask
other than AES has at least that many header bytes inside it, so that the
check before the first mask covers what the tags take. A header mask that is the
last of its group may run short when the next group drops what it gives. -/
def Group.shelteredFrom (caught : Bool) : Nat → List (Legacy A) → Bool
  | _, [] => true
  | tags, mask :: rest =>
    (mask.tail != 0 || decide (tags ≤ size rest) || (caught && rest.isEmpty && mask.isHeader)) &&
      shelteredFrom caught (tags + mask.tail) rest

def Masks.sheltered (masks : Masks A) : Bool :=
  Group.shelteredFrom (!masks.inner.isEmpty) 0 masks.outer.reverse &&
    Group.shelteredFrom false 0 masks.inner.reverse

def Masks.overhead (masks : Masks A) : Nat :=
  Group.sealedLen masks.outer (Group.sealedLen masks.inner 0)

/-- An unsafe reach that nothing after it makes good. -/
def Reach.Fatal (caught : Bool) (reach : Reach) : Prop :=
  reach = .panics ∨ (caught = false ∧ reach = .inverted)

namespace Legacy

variable {mask : Legacy A}

lemma tail_of_isHeader (h : mask.isHeader) : mask.tail = 0 := by
  cases mask with
  | original => rfl
  | aes cipher => exact absurd h (by simp [isHeader])
  | _ => rfl

lemma reach_of_lt_size (htail : mask.tail = 0) {n : Nat} (h : n < mask.size) :
    mask.reach n = if mask.isHeader then .inverted else .panics := by
  cases mask with
  | original => exact if_pos h
  | aes cipher => exact absurd htail (by simp [tail, tagLen])
  | _ => exact if_pos h

lemma reach_of_room {n k : Nat} (hn : n = mask.size + k + mask.tail) (hk : k < 65536) :
    mask.reach n = .range k := by
  cases mask with
  | original =>
    obtain rfl : n = originalLen + k := hn
    show (if _ then _ else _) = _
    rw [if_neg (by omega), Nat.add_sub_cancel_left, if_pos hk]
  | aes cipher =>
    obtain rfl : n = nonceLen + k + tagLen := hn
    show (if _ then _ else _) = _
    rw [if_neg (by omega)]
    exact congrArg Reach.range (by omega)
  | _ =>
    replace hn := hn.trans (Nat.add_zero _)
    show (if _ then _ else _) = _
    rw [if_neg (by omega)]
    exact congrArg Reach.range (by omega)

end Legacy

namespace Group

variable {caught : Bool} {masks : List (Legacy A)} {tags k : Nat}

lemma reachFrom_of_sheltered {n : Nat} (h : shelteredFrom caught tags masks)
    (hsize : size masks ≤ n + tags) : ¬ (reachFrom masks n).Fatal caught := by
  induction masks generalizing tags n with
  | nil => simp [reachFrom, Reach.Fatal]
  | cons mask rest ih =>
    simp only [shelteredFrom, Bool.and_eq_true, Bool.or_eq_true, bne_iff_ne, decide_eq_true_eq]
      at h
    obtain ⟨hhead, hrest⟩ := h
    rw [size_cons] at hsize
    rw [reachFrom]
    rcases mask.reach_cases n with h | ⟨k, h, hn, -⟩ | ⟨h, hheader, hn, -⟩ | ⟨h, rfl, hn⟩
    · rw [h]
      simp [Reach.Fatal]
    · rw [h]
      exact ih hrest (by omega)
    · -- The tags took more than is inside, so the mask is the last and is caught.
      rw [h]
      rcases hhead with (htail | htags) | ⟨⟨hcaught, hlast⟩, -⟩
      · exact absurd (Legacy.tail_of_isHeader hheader) htail
      · omega
      · simp [Reach.Fatal, hlast, hcaught]
    · rcases hhead with (htail | htags) | ⟨-, hheader⟩
      · exact absurd rfl htail
      · simp only [Legacy.size] at hsize
        omega
      · exact absurd hheader (by simp [Legacy.isHeader])

lemma exists_fatal_of_not_sheltered (h : shelteredFrom caught tags masks = false)
    (hroom : size masks + tails masks < 65536) :
    ∃ n, size masks ≤ n + tags ∧ n ≤ size masks + tails masks ∧
      (reachFrom masks n).Fatal caught := by
  induction masks generalizing tags with
  | nil => exact absurd h (by simp [shelteredFrom])
  | cons mask rest ih =>
    have hpos := mask.size_pos
    rw [size_cons, tails_cons] at hroom ⊢
    rw [shelteredFrom, Bool.and_eq_false_iff] at h
    rcases h with hhead | hrest
    · simp only [Bool.or_eq_false_iff, bne_eq_false_iff_eq, decide_eq_false_iff_not] at hhead
      obtain ⟨⟨htail, htags⟩, hcaught⟩ := hhead
      refine ⟨mask.size - 1, by omega, by omega, ?_⟩
      rw [reachFrom, Legacy.reach_of_lt_size htail (by omega)]
      cases hheader : mask.isHeader with
      | false => exact .inl rfl
      | true =>
        cases rest with
        | nil => exact .inr ⟨by simpa [hheader] using hcaught, rfl⟩
        | cons next rest => exact .inl rfl
    · obtain ⟨k, hlow, hhigh, hfatal⟩ := ih hrest (by omega)
      refine ⟨mask.size + k + mask.tail, by omega, by omega, ?_⟩
      rw [reachFrom, Legacy.reach_of_room rfl (by omega)]
      exact hfatal

lemma reachFrom_of_room (masks : List (Legacy A)) (hroom : size masks + k + tails masks < 65536) :
    reachFrom masks (size masks + k + tails masks) = .range k := by
  induction masks with
  | nil => simp [reachFrom]
  | cons mask rest ih =>
    rw [size_cons, tails_cons] at hroom ⊢
    have hmask : mask.reach (mask.size + size rest + k + (mask.tail + tails rest)) =
        .range (size rest + k + tails rest) := Legacy.reach_of_room (by omega) (by omega)
    rw [reachFrom, hmask]
    exact ih (by omega)

lemma reach_of_sheltered {group : Group A} (h : shelteredFrom caught 0 group.reverse) (n : Nat) :
    ¬ (reach group (.range n)).Fatal caught := by
  rw [reach]
  split
  · simp [Reach.Fatal]
  split
  · simp [Reach.Fatal]
  · exact reachFrom_of_sheltered h (by rw [size_reverse]; omega)

lemma exists_reach_fatal {group : Group A} (h : shelteredFrom caught 0 group.reverse = false)
    (hroom : size group + tails group < 65536) :
    ∃ n ≤ size group + tails group, (reach group (.range n)).Fatal caught := by
  obtain ⟨n, hlow, hhigh, hfatal⟩ := exists_fatal_of_not_sheltered h
    (by rwa [size_reverse, tails_reverse])
  rw [size_reverse, tails_reverse] at *
  refine ⟨n, hhigh, ?_⟩
  have hne : group.isEmpty = false := by
    cases group with
    | nil => exact absurd h (by simp [shelteredFrom])
    | cons => rfl
  rwa [reach, hne, if_neg (by simp), if_neg (by omega)]

lemma reach_of_room (group : Group A) (hroom : sealedLen group k < 65536) :
    reach group (.range (sealedLen group k)) = .range k := by
  rw [reach]
  split
  · next hempty =>
    obtain rfl : group = [] := by simpa using hempty
    simp [sealedLen]
  · rw [if_neg (by rw [sealedLen]; omega)]
    have h := reachFrom_of_room group.reverse (k := k)
    rw [size_reverse, tails_reverse] at h
    exact h hroom

end Group

namespace Masks

lemma reach_safe_of_sheltered {masks : Masks A} (h : masks.sheltered) (n : Nat) :
    (masks.reach n).safe := by
  rw [sheltered, Bool.and_eq_true] at h
  have houter := Group.reach_of_sheltered h.1 n
  rw [reach]
  cases hreach : Group.reach masks.outer (.range n) with
  | dropped => rfl
  | panics => exact absurd (.inl hreach) houter
  | inverted =>
    rw [Group.reach]
    split
    · next hempty => exact absurd (.inr ⟨by rw [hempty]; rfl, hreach⟩) houter
    · rfl
  | range k =>
    have hinner := Group.reach_of_sheltered h.2 k
    cases hreach : Group.reach masks.inner (.range k) with
    | dropped => rfl
    | range m => rfl
    | inverted => exact absurd (.inr ⟨rfl, hreach⟩) hinner
    | panics => exact absurd (.inl hreach) hinner

/-- A list that is not sheltered, and not longer than the original mask can
count, has a length at which it fails. -/
lemma exists_unsafe_of_not_sheltered {masks : Masks A} (h : masks.sheltered = false)
    (hroom : masks.overhead < 65536) : ∃ n, (masks.reach n).safe = false := by
  simp only [overhead, Group.sealedLen] at hroom
  rw [sheltered, Bool.and_eq_false_iff] at h
  rcases h with houter | hinner
  · obtain ⟨n, -, hfatal⟩ := Group.exists_reach_fatal houter (by omega)
    refine ⟨n, ?_⟩
    rcases hfatal with hpanics | ⟨hempty, hinverted⟩
    · rw [reach, hpanics]
      rfl
    · rw [reach, hinverted, Group.reach, if_pos (by simpa using hempty)]
      rfl
  · obtain ⟨k, hk, hfatal⟩ := Group.exists_reach_fatal hinner (by omega)
    refine ⟨Group.sealedLen masks.outer k, ?_⟩
    rw [reach, Group.reach_of_room masks.outer (by rw [Group.sealedLen]; omega)]
    rcases hfatal with hpanics | ⟨-, hinverted⟩
    · rw [hpanics]
      rfl
    · rw [hinverted]
      rfl

/-- When opening is total. For masks in any state, the datagrams of a length are
all well opened exactly when the walk over that length is safe; masks that are
sheltered open every datagram well; and, as long as the masks add less than the
original mask can count, no others do. -/
theorem masks_open_is_total_when_sheltered (hA : A.Lawful) (masks : Masks A) :
    (∀ n, (∀ datagram : Bytes, datagram.length = n → WellOpened datagram (masks.open datagram)) ↔
        (masks.reach n).safe) ∧
      (masks.sheltered → ∀ datagram, WellOpened datagram (masks.open datagram)) ∧
      (masks.overhead < 65536 → (∀ datagram, WellOpened datagram (masks.open datagram)) →
        masks.sheltered) := by
  have hiff := masks.wellOpened_iff_reach_safe hA
  refine ⟨hiff, fun h datagram => ?_, fun hroom h => ?_⟩
  · exact (hiff datagram.length).mpr (reach_safe_of_sheltered h _) datagram rfl
  by_contra hnot
  obtain ⟨n, hn⟩ := exists_unsafe_of_not_sheltered (by simpa using hnot) hroom
  rw [(hiff n).mp fun datagram _ => h datagram] at hn
  exact absurd hn (by decide)

theorem masks_open_is_total_aes_innermost :
    Masks.new AesGcm.constantTag [.aes128Gcm [107], .original] none =
        .ok ⟨[.aes (), .original], none, []⟩ ∧
      ∀ datagram, WellOpened datagram
        ((⟨[.aes (), .original], none, []⟩ : Masks AesGcm.constantTag).open datagram) :=
  ⟨rfl, (masks_open_is_total_when_sheltered AesGcm.constantTag_lawful
    ⟨[.aes (), .original], none, []⟩).2.1 (by decide)⟩

/-- An original mask inside an AES mask: 28 bytes are enough for both headers,
and seal an empty region, of which the original mask reads the first byte. -/
theorem masks_open_panics_on_sealed_nothing :
    Masks.new AesGcm.constantTag [.original, .aes128Gcm [107]] none =
        .ok ⟨[.original, .aes ()], none, []⟩ ∧
      (⟨[.original, .aes ()], none, []⟩ : Masks AesGcm.constantTag).open (List.replicate 28 0) =
        .error .index :=
  ⟨rfl, rfl⟩

end Masks

end Xray.Kcp
