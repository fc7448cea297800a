import Xray.Kcp.Mask

/-!
# What mKCP masks wrap, they open

Sealing lays each mask around what the masks before it made (`Group.layers`),
and opening takes the layers off from the outside. One layer is undone by
`Legacy.opens_seal`: the header masks only skip their own bytes, AES-128-GCM is
assumed to open what it sealed, and the original mask runs its cascade backwards
before it looks at its checksum and length. A whole group follows by induction
over its masks, inside any buffer, because the second group of a connection
opens in the middle of the first one's.

The counters of a sender do not matter to a receiver. `Legacy.reset` forgets
them, sealing keeps what is left, and opening reads nothing else.
-/

namespace Xray.Kcp

open Ascii Bytes List AesGcm Group Legacy Masks

/-- What is assumed of AES-128-GCM: it opens exactly what it sealed, and neither
the text nor the tag changes its length. -/
structure AesGcm.Lawful (A : AesGcm) : Prop where
  opens : ∀ key nonce text tag plain,
    A.decrypt key nonce text tag = some plain ↔ A.encrypt key nonce plain = (text, tag)
  text_length : ∀ key nonce plain, (A.encrypt key nonce plain).1.length = plain.length
  tag_length : ∀ key nonce plain, (A.encrypt key nonce plain).2.length = tagLen

/-- A cipher that leaves its text alone and tags it with zeros: it can be run, and
keeps the assumption. -/
def AesGcm.constantTag : AesGcm where
  Key := Unit
  ofPassword _ := ()
  encrypt _ _ text := (text, List.replicate tagLen 0)
  decrypt _ _ text tag := if tag = List.replicate tagLen 0 then some text else none

lemma AesGcm.constantTag_lawful : constantTag.Lawful where
  opens key nonce text tag plain := by
    simp only [constantTag, Option.ite_none_right_eq_some, Option.some.injEq, Prod.mk.injEq]
    exact ⟨fun h => ⟨h.2.symm, h.1.symm⟩, fun h => ⟨h.2.symm, h.1.symm⟩⟩
  text_length _ _ _ := rfl
  tag_length _ _ _ := length_replicate

/-- A draw to seal with where nothing depends on what was drawn. -/
def zeroDraw : Draw := ⟨⟨List.replicate nonceLen 0, length_replicate⟩, 0⟩

/-! ## The cascade of the original mask -/

@[simp] lemma length_xorBack (region : Bytes) (i : Nat) :
    (xorBack region i).length = region.length := by simp [xorBack]

/-- A step of the cascade undoes itself: it changes one byte, by one it leaves
alone. -/
lemma xorBack_xorBack (region : Bytes) {i : Nat} (hi : 4 ≤ i) :
    xorBack (xorBack region i) i = region := by
  by_cases hlt : i < region.length
  · have hback : i ≠ i - 4 := by omega
    rw [xorBack, xorBack]
    simp only [getD_eq_getElem?_getD, getElem?_set_self hlt,
      getElem?_set_ne hback, Option.getD_some, set_set]
    rw [UInt8.xor_assoc, UInt8.xor_self, UInt8.xor_zero, getElem?_eq_getElem hlt,
      Option.getD_some, set_getElem_self]
  · have hnoop : ∀ r : Bytes, r.length = region.length → xorBack r i = r := fun r hr =>
      set_eq_of_length_le (by omega)
    rw [hnoop _ (length_xorBack _ _), hnoop _ rfl]

@[simp] lemma length_foldl_xorBack (is : List Nat) (region : Bytes) :
    (is.foldl xorBack region).length = region.length := by
  induction is generalizing region with
  | nil => rfl
  | cons i is ih => rw [foldl_cons, ih, length_xorBack]

lemma foldl_xorBack_reverse (is : List Nat) (his : ∀ i ∈ is, 4 ≤ i) (region : Bytes) :
    is.reverse.foldl xorBack (is.foldl xorBack region) = region := by
  induction is generalizing region with
  | nil => rfl
  | cons i is ih =>
    rw [reverse_cons, foldl_cons, foldl_append, foldl_cons, foldl_nil,
      ih (fun j hj => his j (mem_cons_of_mem i hj)),
      xorBack_xorBack region (his i mem_cons_self)]

lemma cascade_undone (region : Bytes) (n : Nat) :
    (cascade n).reverse.foldl xorBack ((cascade n).foldl xorBack region) = region := by
  refine foldl_xorBack_reverse _ (fun i hi => ?_) region
  rw [cascade, mem_range'] at hi
  omega

namespace Legacy

variable {A : AesGcm}

def tail : Legacy A → Nat
  | .aes _ => tagLen
  | _ => 0

/-- A mask splits its region: what it wrapped lies between the bytes it owns in
front and those it owns behind. -/
def Opens (mask : Legacy A) (region content : Bytes) : Prop :=
  ∃ front back, mask.open region = .ok (some (mask.size, mask.size + content.length),
      front ++ content ++ back) ∧
    front.length = mask.size ∧ back.length = mask.tail

lemma size_pos (mask : Legacy A) : 0 < mask.size := by
  cases mask with
  | dns header =>
    simp only [size]
    omega
  | _ => simp [size, originalLen, nonceLen]

/-- What the original mask writes before the cascade. -/
def originalFrame (content : Bytes) : Bytes :=
  let tail := toBe 2 content.length ++ content
  toBe 4 (fnv1a tail).toNat ++ tail

lemma sealOriginal_eq (reserved content : Bytes) (hres : reserved.length = originalLen) :
    sealOriginal (reserved ++ content) =
      (cascade (originalFrame content).length).foldl xorBack (originalFrame content) := by
  have hdrop : (reserved ++ content).drop originalLen = content := by rw [← hres, drop_left]
  have hlen : (reserved ++ content).length - originalLen = content.length := by
    rw [length_append, hres, Nat.add_sub_cancel_left]
  rw [sealOriginal, hdrop, hlen]
  rfl

lemma length_originalFrame (content : Bytes) :
    (originalFrame content).length = originalLen + content.length := by
  simp [originalFrame, originalLen]
  omega

lemma take_four_checksum (tail : Bytes) :
    ofBe ((toBe 4 (fnv1a tail).toNat ++ tail).take 4) = (fnv1a tail).toNat := by
  rw [take_append_of_le_length (by simp), take_of_length_le (by simp)]
  exact ofBe_toBe_of_lt (fnv1a tail).toNat_lt

lemma drop_four_checksum (tail : Bytes) : (toBe 4 (fnv1a tail).toNat ++ tail).drop 4 = tail := by
  rw [drop_append_of_le_length (by simp), drop_of_length_le (by simp), nil_append]

lemma openOriginal_cascade (frame : Bytes) :
    openOriginal ((cascade frame.length).foldl xorBack frame) =
      if frame.length < 4 then .error .index
      else if ofBe (frame.take 4) ≠ (fnv1a (frame.drop 4)).toNat then .ok (none, frame)
      else if frame.length < originalLen then .error .index
      else if frame.length - originalLen = ofBe ((frame.drop 4).take 2) then
        .ok (some (originalLen, frame.length), frame)
      else .ok (none, frame) := by
  simp only [openOriginal, length_foldl_xorBack, cascade_undone]

lemma opens_original (content : Bytes) (hlen : content.length < 65536) :
    (original : Legacy A).Opens
      (sealOriginal (List.replicate originalLen 0 ++ content)) content := by
  have hframe := length_originalFrame content
  have hlength : ofBe ((toBe 2 content.length ++ content).take 2) = content.length := by
    rw [take_append_of_le_length (by simp), take_of_length_le (by simp)]
    exact ofBe_toBe_of_lt hlen
  refine ⟨toBe 4 (fnv1a (toBe 2 content.length ++ content)).toNat ++ toBe 2 content.length, [],
    ?_, by simp [size, originalLen], rfl⟩
  rw [sealOriginal_eq _ _ length_replicate]
  show openOriginal _ = _
  rw [openOriginal_cascade, hframe, originalFrame, take_four_checksum, drop_four_checksum,
    hlength, if_neg (by rw [originalLen]; omega),
    if_neg (by simp), if_neg (by omega), if_pos (by omega)]
  simp [size]

/-- The masks that only put a header in front open to what follows it. -/
lemma opens_header {mask : Legacy A} (hopen : ∀ region,
      mask.open region = .ok (some (mask.size, region.length), region))
    (htail : mask.tail = 0) {header : Bytes} (hheader : header.length = mask.size)
    (content : Bytes) : mask.Opens (header ++ content) content :=
  ⟨header, [], by rw [hopen, length_append, hheader, append_nil], hheader, htail.symm⟩

lemma opens_aes (hA : A.Lawful) (cipher : A.Key) (draw : Draw) (content : Bytes) :
    (aes cipher).Opens (draw.nonce.val ++ (A.encrypt cipher draw.nonce content).1 ++
      (A.encrypt cipher draw.nonce content).2) content := by
  obtain ⟨nonce, hnonce⟩ := draw.nonce
  have htext := hA.text_length cipher nonce content
  have htag := hA.tag_length cipher nonce content
  have hdec : A.decrypt cipher nonce (A.encrypt cipher nonce content).1
      (A.encrypt cipher nonce content).2 = some content := (hA.opens ..).mpr rfl
  generalize (A.encrypt cipher nonce content).1 = text at *
  generalize (A.encrypt cipher nonce content).2 = tag at *
  refine ⟨nonce, tag, ?_, hnonce, htag⟩
  have hlen : (nonce ++ text ++ tag).length = nonceLen + content.length + tagLen := by
    simp only [length_append, hnonce, htext, htag]
  have htake : (nonce ++ text ++ tag).take nonceLen = nonce := by
    rw [append_assoc, ← hnonce, take_left]
  have hdrop : (nonce ++ text ++ tag).drop nonceLen = text ++ tag := by
    rw [append_assoc, ← hnonce, drop_left]
  have hsplit : (text ++ tag).length - tagLen = text.length := by
    rw [length_append, htag, Nat.add_sub_cancel]
  show Except.ok (openAes cipher _) = _
  rw [openAes, if_neg (by rw [hlen]; omega)]
  dsimp only
  rw [htake, hdrop, hsplit, take_left, drop_left, hdec, hlen]
  rfl

/-- A region that a mask sealed opens to what was sealed. The original mask
writes the length in sixteen bits. -/
lemma opens_seal (hA : A.Lawful) (mask : Legacy A) (draw : Draw) (content : Bytes)
    (hlen : mask = original → content.length < 65536) :
    mask.Opens (mask.seal draw (List.replicate mask.size 0 ++ content)).2 content := by
  have hdrop : ∀ n : Nat, (List.replicate n (0 : UInt8) ++ content).drop n = content := fun n => by
    rw [drop_append_of_le_length (by simp), drop_of_length_le (by simp), nil_append]
  cases mask with
  | original => exact opens_original content (hlen rfl)
  | aes cipher =>
    exact opens_aes hA cipher draw content
  | dns header =>
    simp only [Legacy.seal, size, hdrop]
    refine opens_header (fun _ => rfl) rfl ?_ content
    simp only [length_append, length_toBe, length_drop, size]
    omega
  | _ =>
    exact opens_header (fun _ => rfl) rfl (by simp [size]) content

lemma length_seal (hA : A.Lawful) (mask : Legacy A) (draw : Draw) (content : Bytes) :
    (mask.seal draw (List.replicate mask.size 0 ++ content)).2.length =
      mask.size + content.length + mask.tail := by
  cases mask with
  | original =>
    show (sealOriginal _).length = _
    rw [size, sealOriginal_eq _ _ length_replicate, length_foldl_xorBack, length_originalFrame]
    rfl
  | aes cipher =>
    simp only [Legacy.seal, size, tail, length_append, length_drop, hA.text_length,
      hA.tag_length, draw.nonce.property, length_replicate]
    omega
  | dns header =>
    simp only [Legacy.seal, size, tail, length_append, length_toBe, length_drop, length_replicate]
    omega
  | _ =>
    simp only [Legacy.seal, size, tail, length_append, length_cons, length_nil,
      length_toBe, length_drop, length_replicate]
    omega

/-- A mask as `Legacy::new` builds it, with nothing counted yet. -/
def reset : Legacy A → Legacy A
  | .dtls _ _ _ => .dtls 0 0 0
  | .srtp _ => .srtp 0
  | .wechat _ => .wechat 0
  | mask => mask

lemma reset_seal (mask : Legacy A) (draw : Draw) (region : Bytes) :
    (mask.seal draw region).1.reset = mask.reset := by
  cases mask <;> rfl

@[simp] lemma size_reset (mask : Legacy A) : mask.reset.size = mask.size := by
  cases mask <;> rfl

@[simp] lemma tail_reset (mask : Legacy A) : mask.reset.tail = mask.tail := by
  cases mask <;> rfl

@[simp] lemma open_reset (mask : Legacy A) (region : Bytes) :
    mask.reset.open region = mask.open region := by
  cases mask <;> rfl

end Legacy

namespace Group

variable {A : AesGcm}

def tails (group : Group A) : Nat := (group.map Legacy.tail).sum

@[simp] lemma size_nil : size ([] : Group A) = 0 := rfl

@[simp] lemma size_cons (mask : Legacy A) (group : Group A) :
    size (mask :: group) = mask.size + size group := by simp [size]

@[simp] lemma tails_nil : tails ([] : Group A) = 0 := rfl

@[simp] lemma tails_cons (mask : Legacy A) (group : Group A) :
    tails (mask :: group) = mask.tail + tails group := by simp [tails]

@[simp] lemma size_reverse (group : Group A) : size group.reverse = size group := by
  simp [size, sum_reverse]

@[simp] lemma tails_reverse (group : Group A) : tails group.reverse = tails group := by
  simp [tails, sum_reverse]

/-- What `payload` becomes when each mask in turn takes it as its content, with
the room for the masks further out left away. -/
def layers (draws : Nat → Draw) : Nat → Group A → Bytes → Bytes
  | _, [], payload => payload
  | i, mask :: rest, payload =>
    layers draws (i + 1) rest
      (mask.seal (draws i) (List.replicate mask.size 0 ++ payload)).2

lemma length_layers (hA : A.Lawful) (draws : Nat → Draw) (i : Nat) (group : Group A)
    (payload : Bytes) :
    (layers draws i group payload).length = size group + payload.length + tails group := by
  induction group generalizing i payload with
  | nil => simp [layers]
  | cons mask rest ih =>
    rw [layers, ih, length_seal hA, size_cons, tails_cons]
    omega

/-- The loop of `Group::seal` writes the layers over the room it reserved. -/
lemma sealFrom_eq_layers (draws : Nat → Draw) (i : Nat) (group : Group A) (payload : Bytes) :
    (sealFrom draws i group (List.replicate (size group) 0 ++ payload) (size group)).2 =
      layers draws i group payload := by
  induction group generalizing i payload with
  | nil => simp [sealFrom, layers]
  | cons mask rest ih =>
    have hroom : List.replicate (size (mask :: rest)) (0 : UInt8) ++ payload =
        List.replicate (size rest) 0 ++ (List.replicate mask.size 0 ++ payload) := by
      rw [← append_assoc, replicate_append_replicate, size_cons, Nat.add_comm]
    have hstart : size (mask :: rest) - mask.size = size rest := by
      rw [size_cons, Nat.add_sub_cancel_left]
    simp only [sealFrom, hroom, hstart]
    rw [drop_append_of_le_length (by simp), drop_of_length_le (by simp),
      take_append_of_le_length (by simp), take_of_length_le (by simp)]
    exact ih (i + 1) _

lemma reset_sealFrom (draws : Nat → Draw) (i : Nat) (group : Group A) (buf : Bytes)
    (start : Nat) : (sealFrom draws i group buf start).1.map reset = group.map reset := by
  induction group generalizing i buf start with
  | nil => rfl
  | cons mask rest ih =>
    simp only [sealFrom, map_cons, ih, reset_seal]

variable {group group' : Group A} {draws : Nat → Draw} {payload sealed : Bytes}

lemma seal_eq (hA : A.Lawful) (hne : group ≠ []) (draws : Nat → Draw) (payload : Bytes) :
    (Group.seal group draws payload).2 =
      if size group + payload.length + tails group ≤ udpSize then some (layers draws 0 group payload)
      else none := by
  have hempty : group.isEmpty = false := by simpa using hne
  rw [Group.seal, hempty, if_neg (by simp)]
  by_cases hroom : size group + payload.length > udpSize
  · rw [if_pos hroom, if_neg (by omega)]
  · rw [if_neg hroom]
    dsimp only
    rw [sealFrom_eq_layers, length_layers hA]

lemma reset_seal (group : Group A) (draws : Nat → Draw) (payload : Bytes) :
    (Group.seal group draws payload).1.map Legacy.reset = group.map Legacy.reset := by
  rw [Group.seal]
  split
  · rfl
  · split
    · rfl
    · exact reset_sealFrom ..

/-! Opening reads a window of the buffer and writes the same window. -/

lemma drop_take_window (pre region post : Bytes) :
    ((pre ++ region ++ post).take (pre.length + region.length)).drop pre.length = region := by
  rw [← length_append, take_left, drop_left]

lemma take_window (pre region post : Bytes) : (pre ++ region ++ post).take pre.length = pre := by
  rw [append_assoc, take_left]

lemma drop_window (pre region post : Bytes) :
    (pre ++ region ++ post).drop (pre.length + region.length) = post := by
  rw [← length_append, drop_left]

/-- One turn of the loop of `Group::open`, on the window it looks at. -/
lemma openFrom_cons (mask : Legacy A) (rest : List (Legacy A)) (pre region post : Bytes) :
    openFrom (mask :: rest) (pre ++ region ++ post) pre.length (pre.length + region.length) =
      match mask.open region with
      | .error panic => .error panic
      | .ok (none, region) => .ok (none, pre ++ region ++ post)
      | .ok (some (a, b), region) =>
        openFrom rest (pre ++ region ++ post) (pre.length + a) (pre.length + b) := by
  have hbounds : ¬ (pre.length > pre.length + region.length ∨
      pre.length + region.length > (pre ++ region ++ post).length) := by simp
  rcases hopen : mask.open region with panic | ⟨_ | ⟨a, b⟩, opened⟩ <;>
    simp only [openFrom, if_neg hbounds, drop_take_window, take_window, drop_window, hopen]

lemma openFrom_of_opens {mask : Legacy A} {region content : Bytes}
    (h : mask.Opens region content) (rest : List (Legacy A)) (pre post : Bytes) :
    ∃ pre' post', openFrom (mask :: rest) (pre ++ region ++ post) pre.length
        (pre.length + region.length) =
      openFrom rest (pre' ++ content ++ post') pre'.length (pre'.length + content.length) := by
  obtain ⟨front, back, hopen, hfront, -⟩ := h
  refine ⟨pre ++ front, back ++ post, ?_⟩
  rw [openFrom_cons, hopen]
  simp only [length_append, hfront, append_assoc, Nat.add_assoc]

/-- The layers come off in the reverse order, whatever masks are left to run. -/
lemma openFrom_layers (hA : A.Lawful) (draws : Nat → Draw) (i : Nat) (group : Group A)
    (payload : Bytes) (hlen : size group + payload.length + tails group ≤ udpSize)
    (rest : List (Legacy A)) (pre post : Bytes) :
    ∃ pre' post', openFrom (group.reverse ++ rest) (pre ++ layers draws i group payload ++ post)
        pre.length (pre.length + (layers draws i group payload).length) =
      openFrom rest (pre' ++ payload ++ post') pre'.length (pre'.length + payload.length) := by
  induction group generalizing i payload rest with
  | nil => exact ⟨pre, post, rfl⟩
  | cons mask group ih =>
    rw [size_cons, tails_cons, udpSize] at hlen
    have hopens := opens_seal hA mask (draws i) payload (fun _ => by omega)
    have hwrapped := length_seal hA mask (draws i) payload
    obtain ⟨pre₁, post₁, houter⟩ := ih (i + 1)
      (mask.seal (draws i) (List.replicate mask.size 0 ++ payload)).2
      (by rw [udpSize]; omega) (mask :: rest)
    obtain ⟨pre₂, post₂, hinner⟩ := openFrom_of_opens hopens rest pre₁ post₁
    refine ⟨pre₂, post₂, ?_⟩
    rw [reverse_cons, append_assoc]
    exact houter.trans hinner

lemma open_seal (hA : A.Lawful) (h : (Group.seal group draws payload).2 = some sealed)
    (pre post : Bytes) :
    ∃ pre' post', Group.open group (pre ++ sealed ++ post) pre.length (pre.length + sealed.length) =
      .ok (some (pre'.length, pre'.length + payload.length), pre' ++ payload ++ post') := by
  by_cases hne : group = []
  · subst hne
    obtain rfl : payload = sealed := by simpa [Group.seal] using h
    exact ⟨pre, post, rfl⟩
  rw [seal_eq hA hne] at h
  split at h
  · next hlen =>
    obtain rfl := Option.some.inj h
    obtain ⟨pre', post', hopen⟩ := openFrom_layers hA draws 0 group payload hlen [] pre post
    refine ⟨pre', post', ?_⟩
    have hempty : group.isEmpty = false := by simpa using hne
    rw [Group.open, hempty, if_neg (by simp), length_layers hA, if_neg (by omega),
      ← length_layers hA draws 0]
    rw [append_nil] at hopen
    exact hopen
  · simp at h

lemma openFrom_reset (group : Group A) (buf : Bytes) (start stop : Nat) :
    openFrom (group.map reset) buf start stop = openFrom group buf start stop := by
  induction group generalizing buf start stop with
  | nil => rfl
  | cons mask rest ih => simp only [map_cons, openFrom, open_reset, ih]

lemma open_congr (h : group.map reset = group'.map reset) (buf : Bytes)
    (start stop : Nat) : Group.open group buf start stop = Group.open group' buf start stop := by
  have hreset : ∀ g : Group A, Group.open (g.map Legacy.reset) buf start stop =
      Group.open g buf start stop := fun g => by
    simp only [Group.open, size, ← map_reverse, openFrom_reset, map_map, isEmpty_map]
    congr 4
    exact map_congr_left fun mask _ => size_reset mask
  rw [← hreset group, h, hreset group']

def sealedLen (group : Group A) (payload : Nat) : Nat := size group + payload + tails group

/-- A group with at least one mask drops what would be longer than a datagram. -/
def Overflows (group : Group A) (payload : Nat) : Prop :=
  group ≠ [] ∧ sealedLen group payload > udpSize

lemma seal_eq_none (hA : A.Lawful) (group : Group A) (draws : Nat → Draw) (payload : Bytes) :
    (Group.seal group draws payload).2 = none ↔ Overflows group payload.length := by
  by_cases hne : group = []
  · subst hne
    simp [Group.seal, Overflows]
  rw [seal_eq hA hne, Overflows, sealedLen]
  split
  · exact iff_of_false (by simp) (by omega)
  · exact iff_of_true rfl ⟨hne, by omega⟩

lemma length_of_seal (hA : A.Lawful) (h : (Group.seal group draws payload).2 = some sealed) :
    sealed.length = sealedLen group payload.length := by
  by_cases hne : group = []
  · subst hne
    obtain rfl : payload = sealed := by simpa [Group.seal] using h
    simp [sealedLen]
  · rw [seal_eq hA hne] at h
    split at h
    · obtain rfl := Option.some.inj h
      exact length_layers hA draws 0 group payload
    · simp at h

lemma overflows_congr (h : group.map reset = group'.map reset) (n : Nat) :
    sealedLen group n = sealedLen group' n ∧ (Overflows group n ↔ Overflows group' n) := by
  have hsize : size group = size group' := by
    have := congrArg size h
    simpa [size, Function.comp_def] using this
  have htails : tails group = tails group' := by
    have := congrArg tails h
    simpa [tails, Function.comp_def] using this
  have hnil : group = [] ↔ group' = [] := by
    rw [← map_eq_nil_iff (f := reset), h, map_eq_nil_iff]
  simp only [Overflows, sealedLen, ne_eq, hsize, htails, hnil, true_and]

end Group

/-! ## The masks of a connection -/

namespace Masks

variable {A : AesGcm}

inductive Reachable (list : List KcpMask) (noise : Option UdpNoiseConfig) : Masks A → Prop where
  | new {masks : Masks A} (h : new A list noise = .ok masks) : Reachable list noise masks
  | wrap (masks : Masks A) (draws : WrapDraws) (datagram : Bytes) (now : Nat)
      (h : Reachable list noise masks) : Reachable list noise (masks.wrap draws datagram now).1
  | sent (masks : Masks A) (now interval : Nat) (h : Reachable list noise masks) :
      Reachable list noise (masks.sent now interval)

lemma reset_sealNoise (draws : Nat → Bytes × Nat × (Nat → Draw)) (i : Nat)
    (items : List UdpNoiseItem) (outer : Group A) :
    (sealNoise draws i items outer).1.map reset = outer.map reset := by
  induction items generalizing i outer with
  | nil => rfl
  | cons item items ih =>
    simp only [sealNoise]
    rw [ih, Group.reset_seal]

lemma reset_wrap (masks : Masks A) (draws : WrapDraws) (datagram : Bytes) (now : Nat) :
    (masks.wrap draws datagram now).1.inner.map reset = masks.inner.map reset ∧
      (masks.wrap draws datagram now).1.outer.map reset = masks.outer.map Legacy.reset := by
  have hinner := reset_seal masks.inner draws.inner datagram
  rw [wrap]
  generalize Group.seal masks.inner draws.inner datagram = result at hinner ⊢
  rcases result with ⟨inner, _ | sealed⟩
  · exact ⟨hinner, rfl⟩
  · exact ⟨hinner, by dsimp only; rw [Group.reset_seal, reset_sealNoise]⟩

/-- Wrapping moves counters only. -/
lemma reset_of_reachable {list : List KcpMask} {noise : Option UdpNoiseConfig}
    {receiver sender : Masks A} (hr : new A list noise = .ok receiver)
    (hs : Reachable list noise sender) :
    sender.inner.map reset = receiver.inner.map reset ∧
      sender.outer.map reset = receiver.outer.map reset := by
  induction hs with
  | new h =>
    rw [hr] at h
    cases h
    exact ⟨rfl, rfl⟩
  | wrap masks draws datagram now _ ih =>
    have h := reset_wrap masks draws datagram now
    exact ⟨h.1.trans ih.1, h.2.trans ih.2⟩
  | sent masks now interval _ ih => exact ih

lemma wrap_of_inner {masks : Masks A} {draws : WrapDraws} {datagram : Bytes} (now : Nat)
    {sealed : Bytes} (h : (Group.seal masks.inner draws.inner datagram).2 = some sealed) :
    ∃ outer noise, outer.map reset = masks.outer.map reset ∧
      (masks.wrap draws datagram now).2 = some ⟨noise, (Group.seal outer draws.outer sealed).2⟩ := by
  generalize hresult : Group.seal masks.inner draws.inner datagram = result at h
  obtain ⟨inner, _⟩ := result
  subst h
  rcases hnoise : sealNoise draws.noise 0 (masks.noiseDue now) masks.outer with ⟨outer, noise⟩
  have hreset := reset_sealNoise draws.noise 0 (masks.noiseDue now) masks.outer
  rw [hnoise] at hreset
  refine ⟨outer, noise, hreset, ?_⟩
  rw [wrap, hresult]
  rw [hnoise]

lemma wrap_of_inner_none {masks : Masks A} {draws : WrapDraws} {datagram : Bytes} {now : Nat}
    (h : (Group.seal masks.inner draws.inner datagram).2 = none) :
    (masks.wrap draws datagram now).2 = none := by
  generalize hresult : Group.seal masks.inner draws.inner datagram = result at h
  obtain ⟨inner, _⟩ := result
  subst h
  rw [wrap, hresult]

/-- What is wrapped opens. A receiver built from the list the sender was built
from reads back the payload of every datagram the sender wraps, wherever the
counters of its masks stand and whatever it draws; and a payload is dropped
exactly when a group of at least one mask would make more than a datagram of
it. -/
theorem masks_round_trip (hA : A.Lawful) {list : List KcpMask} {noise : Option UdpNoiseConfig}
    {receiver sender : Masks A} (hr : new A list noise = .ok receiver)
    (hs : Reachable list noise sender) (draws : WrapDraws) (payload : Bytes) (now : Nat) :
    (∀ wrapped datagram, (sender.wrap draws payload now).2 = some wrapped →
      wrapped.datagram = some datagram →
        ∃ start stop buf, receiver.open datagram = .ok (some (start, stop), buf) ∧
          start ≤ stop ∧ stop ≤ buf.length ∧ (buf.take stop).drop start = payload) ∧
      (((sender.wrap draws payload now).2.bind (·.datagram) = none) ↔
        Group.Overflows receiver.inner payload.length ∨
          Group.Overflows receiver.outer (sealedLen receiver.inner payload.length)) := by
  obtain ⟨hinner, houter⟩ := reset_of_reachable hr hs
  have hlen := overflows_congr hinner payload.length
  cases hseal : (Group.seal sender.inner draws.inner payload).2 with
  | none =>
    rw [wrap_of_inner_none hseal]
    refine ⟨fun _ _ h => absurd h (by simp), iff_of_true rfl (Or.inl ?_)⟩
    exact hlen.2.mp ((seal_eq_none hA ..).mp hseal)
  | some sealed =>
    obtain ⟨outer, packets, hreset, hwrap⟩ := wrap_of_inner now hseal
    have hout := hreset.trans houter
    refine ⟨?_, ?_⟩
    · intro wrapped datagram h hdatagram
      rw [hwrap] at h
      cases h
      obtain ⟨pre₁, post₁, hopen₁⟩ := open_seal hA hdatagram [] []
      obtain ⟨pre₂, post₂, hopen₂⟩ := open_seal hA hseal pre₁ post₁
      refine ⟨pre₂.length, pre₂.length + payload.length, pre₂ ++ payload ++ post₂, ?_, by omega,
        by simp, drop_take_window ..⟩
      rw [nil_append, append_nil, length_nil, Nat.zero_add] at hopen₁
      rw [Masks.open, ← Group.open_congr hout, hopen₁]
      dsimp only
      rw [← open_congr hinner, hopen₂]
    · have hnot : ¬ Group.Overflows receiver.inner payload.length := fun h => by
        rw [(seal_eq_none hA ..).mpr (hlen.2.mpr h)] at hseal
        exact absurd hseal (by simp)
      rw [hwrap]
      show (Group.seal outer draws.outer sealed).2 = none ↔ _
      rw [seal_eq_none hA, (overflows_congr hout _).2, length_of_seal hA hseal, hlen.1]
      exact (or_iff_right hnot).symm

def zeroDraws : WrapDraws :=
  ⟨fun _ => zeroDraw, fun _ => ([], 0, fun _ => zeroDraw), fun _ => zeroDraw⟩

/-- A stack with each kind of mask on both sides of a noise mask. -/
def twoGroups : Masks constantTag :=
  ⟨[.original, .dtls 0 0 0], some ⟨⟨[], ⟨0, 0⟩⟩, none⟩, [.aes (), .srtp 0]⟩

theorem masks_round_trip_two_groups : new constantTag
        [.original, .header .dtls, .noise, .aes128Gcm [107], .header .srtp]
        (some ⟨[], ⟨0, 0⟩⟩) = .ok twoGroups ∧
      ∃ datagram, (((twoGroups.wrap zeroDraws [] 0).1.wrap zeroDraws [1, 2, 3] 1).2.bind
          (·.datagram)) = some datagram ∧
        ∃ start stop buf, twoGroups.open datagram = .ok (some (start, stop), buf) ∧
          start ≤ stop ∧ stop ≤ buf.length ∧ (buf.take stop).drop start = [1, 2, 3] := by
  have hnew : new constantTag
      [.original, .header .dtls, .noise, .aes128Gcm [107], .header .srtp]
      (some ⟨[], ⟨0, 0⟩⟩) = .ok twoGroups := rfl
  refine ⟨hnew, ?_⟩
  have hsome : (((twoGroups.wrap zeroDraws [] 0).1.wrap zeroDraws [1, 2, 3] 1).2.bind
      (·.datagram)).isSome := by decide +kernel
  obtain ⟨datagram, hdatagram⟩ := Option.isSome_iff_exists.mp hsome
  refine ⟨datagram, hdatagram, ?_⟩
  obtain ⟨wrapped, hwrap, hdatagram⟩ := Option.bind_eq_some_iff.mp hdatagram
  exact (masks_round_trip constantTag_lawful hnew
    (.wrap twoGroups zeroDraws [] 0 (.new hnew)) zeroDraws [1, 2, 3] 1).1 wrapped datagram hwrap
    hdatagram

/-- Without a mask there is no limit: a group of none passes on what it gets. -/
theorem masks_without_masks_pass_any_size : new constantTag [] none = .ok {} ∧
      sealedLen ([] : Group constantTag) 4097 > udpSize ∧
        ((({} : Masks constantTag).wrap zeroDraws (List.replicate 4097 0) 0).2.bind
          (·.datagram)) = some (List.replicate 4097 0) := by
  refine ⟨rfl, by decide, ?_⟩
  rfl

end Masks

end Xray.Kcp
