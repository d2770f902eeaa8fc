import Lightning.Util.Bytes

/-!
# Route hints for an invoice

`lightning-invoice/src/utils.rs`, `filter_channels`: from the usable channels, pick the route
hints an invoice carries. Channels without an inbound scid or forwarding info are skipped; a
public one stops the scan with no hints; otherwise each counterparty keeps its channel of
highest inbound capacity, and when some channel reaches `min_inbound_capacity_msat` the
counterparties below it are dropped.

The per-counterparty `HashMap` is an association list (`ChannelMap`), whose order stands for
the map's unspecified iteration order; everything proved here holds in any order.
`filterLoop_spec` is the loop invariant and `filter_channels_selection_rule` the selection
rule for every channel list. `create_phantom_invoice` builds its hints from every channel of
each participating node, with no such selection: `phantom_hints_cover_filter_channels` says
that it keeps, extended to the phantom node, every hint `filter_channels` would choose.
-/

namespace Lightning.Invoice

/-- Modelled from the spec: `secp256k1::PublicKey`, a 33-byte compressed point; only its
equality is used, as the key of the per-counterparty map. -/
structure PublicKey where
  bytes : Mathlib.Vector UInt8 33
deriving DecidableEq

/-- Modelled from the spec: `CounterpartyForwardingInfo`, the fields `filter_channels`
copies into a hint. -/
structure CounterpartyForwardingInfo where
  feeBaseMsat : UInt32
  feeProportionalMillionths : UInt32
  cltvExpiryDelta : UInt16
deriving DecidableEq

/-- Modelled from the spec: `ChannelCounterparty`, the fields `filter_channels` reads. -/
structure ChannelCounterparty where
  nodeId : PublicKey
  forwardingInfo : Option CounterpartyForwardingInfo
deriving DecidableEq

/-- Modelled from the spec: `ChannelDetails`, the fields `filter_channels` reads;
`inboundPaymentScid` is what `get_inbound_payment_scid()` returns, whose body is not in the
sources. -/
structure ChannelDetails where
  counterparty : ChannelCounterparty
  inboundPaymentScid : Option UInt64
  isPublic : Bool
  inboundCapacityMsat : UInt64
deriving DecidableEq

/-- `ChannelDetails::get_inbound_payment_scid`. -/
def ChannelDetails.getInboundPaymentScid (channel : ChannelDetails) : Option UInt64 :=
  channel.inboundPaymentScid

/-- Modelled from the spec: `RoutingFees`. -/
structure RoutingFees where
  baseMsat : UInt32
  proportionalMillionths : UInt32
deriving DecidableEq

/-- Modelled from the spec: `RouteHintHop`. -/
structure RouteHintHop where
  srcNodeId : PublicKey
  shortChannelId : UInt64
  fees : RoutingFees
  cltvExpiryDelta : UInt16
  htlcMinimumMsat : Option UInt64
  htlcMaximumMsat : Option UInt64
deriving DecidableEq

/-- Modelled from the spec: `RouteHint`, a path of hops. -/
structure RouteHint where
  hops : List RouteHintHop
deriving DecidableEq

/-! ## The per-counterparty map -/

/-- `HashMap<PublicKey, &ChannelDetails>`, as its entries. -/
abbrev ChannelMap := List (PublicKey × ChannelDetails)

namespace ChannelMap

/-- `HashMap::get`. -/
def get? : ChannelMap → PublicKey → Option ChannelDetails
  | [], _ => none
  | (k, v) :: rest, key => if k = key then some v else get? rest key

/-- `HashMap::insert`, also what `entry(key).insert` does on either kind of entry: replace the
value of a present key, or add the key. -/
def insert : ChannelMap → PublicKey → ChannelDetails → ChannelMap
  | [], key, value => [(key, value)]
  | (k, v) :: rest, key, value =>
      if k = key then (key, value) :: rest else (k, v) :: insert rest key value

/-- The keys of the map. -/
def keys (m : ChannelMap) : List PublicKey := m.map Prod.fst

variable {m : ChannelMap} {k q : PublicKey} {v : ChannelDetails}

@[simp] theorem keys_nil : keys [] = [] := rfl

@[simp] theorem keys_cons (e : PublicKey × ChannelDetails) (m : ChannelMap) :
    keys (e :: m) = e.1 :: keys m := rfl

theorem get?_eq_none_iff : m.get? k = none ↔ k ∉ m.keys := by
  induction m with
  | nil => simp [get?]
  | cons e m ih =>
    by_cases hk : e.1 = k
    · simp [get?, hk]
    · simp [get?, hk, ih, Ne.symm hk]

theorem mem_of_get?_eq_some (h : m.get? k = some v) : (k, v) ∈ m := by
  induction m with
  | nil => cases h
  | cons e m ih =>
    by_cases hk : e.1 = k
    · simp only [get?, hk, ↓reduceIte, Option.some.injEq] at h
      subst hk h
      exact List.mem_cons_self _ _
    · simp only [get?, hk, ↓reduceIte] at h
      exact List.mem_cons_of_mem _ (ih h)

theorem get?_eq_some_of_mem (hn : m.keys.Nodup) (h : (k, v) ∈ m) : m.get? k = some v := by
  induction m with
  | nil => cases h
  | cons e m ih =>
    rw [keys_cons, List.nodup_cons] at hn
    rcases List.mem_cons.1 h with rfl | h
    · simp [get?]
    · have hk : e.1 ≠ k := fun he => hn.1 (he ▸ List.mem_map_of_mem Prod.fst h)
      simp [get?, hk, ih hn.2 h]

/-- Looking up a key after an insertion. -/
theorem get?_insert : (m.insert k v).get? q = if k = q then some v else m.get? q := by
  induction m with
  | nil => simp [insert, get?]
  | cons e m ih =>
    by_cases he : e.1 = k
    · subst he
      by_cases hq : e.1 = q <;> simp [insert, get?, hq]
    · by_cases hq : e.1 = q
      · subst hq
        simp [insert, get?, he, Ne.symm he]
      · simp [insert, get?, he, hq, ih]

theorem mem_keys_insert : q ∈ (m.insert k v).keys ↔ q = k ∨ q ∈ m.keys := by
  induction m with
  | nil => simp [insert]
  | cons e m ih =>
    by_cases he : e.1 = k
    · simp [insert, he]
    · simp only [insert, he, ↓reduceIte, keys_cons, List.mem_cons, ih]
      exact or_left_comm

theorem nodup_keys_insert (hn : m.keys.Nodup) : (m.insert k v).keys.Nodup := by
  induction m with
  | nil => simp [insert]
  | cons e m ih =>
    rw [keys_cons, List.nodup_cons] at hn
    by_cases he : e.1 = k
    · simpa [insert, he] using hn
    · simp only [insert, he, ↓reduceIte, keys_cons, List.nodup_cons, mem_keys_insert, false_or]
      exact ⟨hn.1, ih hn.2⟩

end ChannelMap

/-! ## `filter_channels` -/

/-- The channels `filter_channels` considers: those with an inbound scid and forwarding info;
the loop skips the others with `continue`. -/
def eligible (channel : ChannelDetails) : Bool :=
  channel.getInboundPaymentScid.isSome && channel.counterparty.forwardingInfo.isSome

/-- The loop's `continue` test is the negation of `eligible`. -/
theorem skip_eq_not_eligible (c : ChannelDetails) :
    (c.getInboundPaymentScid.isNone || c.counterparty.forwardingInfo.isNone) = !eligible c := by
  unfold eligible
  cases c.getInboundPaymentScid <;> cases c.counterparty.forwardingInfo <;> rfl

theorem skip_eq_false {c : ChannelDetails} (he : eligible c = true) :
    (c.getInboundPaymentScid.isNone || c.counterparty.forwardingInfo.isNone) = false := by
  rw [skip_eq_not_eligible, he]
  rfl

theorem skip_eq_true {c : ChannelDetails} (he : ¬eligible c = true) :
    (c.getInboundPaymentScid.isNone || c.counterparty.forwardingInfo.isNone) = true := by
  rw [skip_eq_not_eligible, Bool.eq_false_iff.2 he]
  rfl

/-- The body of the loop for one considered private channel: the `entry` match, which keeps
the current channel when the new one has less inbound capacity and otherwise stores the new
one. -/
def selectChannel (filteredChannels : ChannelMap) (channel : ChannelDetails) : ChannelMap :=
  match filteredChannels.get? channel.counterparty.nodeId with
  | some current =>
      if channel.inboundCapacityMsat < current.inboundCapacityMsat then filteredChannels
      else filteredChannels.insert channel.counterparty.nodeId channel
  | none => filteredChannels.insert channel.counterparty.nodeId channel

/-- The `for channel in channels.iter()` loop, from the given map and
`min_capacity_channel_exists`: `none` is the early `return vec![]` on a public channel. -/
def filterLoop (minInboundCapacity : UInt64) :
    List ChannelDetails → ChannelMap → Bool → Option (ChannelMap × Bool)
  | [], filteredChannels, minCapacityChannelExists =>
      some (filteredChannels, minCapacityChannelExists)
  | channel :: channels, filteredChannels, minCapacityChannelExists =>
      if channel.getInboundPaymentScid.isNone || channel.counterparty.forwardingInfo.isNone then
        filterLoop minInboundCapacity channels filteredChannels minCapacityChannelExists
      else if channel.isPublic then none
      else
        filterLoop minInboundCapacity channels (selectChannel filteredChannels channel)
          (if channel.inboundCapacityMsat ≥ minInboundCapacity then true
            else minCapacityChannelExists)

/-! ## The loop invariant -/

/-- What the map holds once the loop has stored the considered channels `E`: one entry per
counterparty of `E`, each a channel of that counterparty in `E` of highest inbound capacity. -/
structure Selects (E : List ChannelDetails) (m : ChannelMap) : Prop where
  nodup : m.keys.Nodup
  sound : ∀ p c, m.get? p = some c → c ∈ E ∧ c.counterparty.nodeId = p ∧
    ∀ c' ∈ E, c'.counterparty.nodeId = p → c'.inboundCapacityMsat ≤ c.inboundCapacityMsat
  complete : ∀ c ∈ E, c.counterparty.nodeId ∈ m.keys

section Selects

variable {E : List ChannelDetails} {m : ChannelMap} {c : ChannelDetails}

theorem selects_nil : Selects [] [] :=
  ⟨List.nodup_nil, fun _ _ h => by simp [ChannelMap.get?] at h, fun _ h => by cases h⟩

/-- Storing a channel of highest capacity for its counterparty keeps the invariant. -/
theorem Selects.insert (hs : Selects E m)
    (hmax : ∀ c' ∈ E, c'.counterparty.nodeId = c.counterparty.nodeId →
      c'.inboundCapacityMsat ≤ c.inboundCapacityMsat) :
    Selects (E ++ [c]) (m.insert c.counterparty.nodeId c) where
  nodup := ChannelMap.nodup_keys_insert hs.nodup
  sound p d h := by
    rw [ChannelMap.get?_insert] at h
    split at h
    · cases h
      subst p
      refine ⟨List.mem_append_right _ (List.mem_singleton_self _), rfl, fun c' hc' hn => ?_⟩
      rcases List.mem_append.1 hc' with hc' | hc'
      · exact hmax c' hc' hn
      · rw [List.mem_singleton.1 hc']
        exact UInt64.le_refl _
    · obtain ⟨hd, hdp, hmaxd⟩ := hs.sound p d h
      refine ⟨List.mem_append_left _ hd, hdp, fun c' hc' hn => ?_⟩
      rcases List.mem_append.1 hc' with hc' | hc'
      · exact hmaxd c' hc' hn
      · rw [List.mem_singleton.1 hc'] at hn
        exact absurd hn ‹_›
  complete c' hc' := by
    rw [ChannelMap.mem_keys_insert]
    rcases List.mem_append.1 hc' with hc' | hc'
    · exact .inr (hs.complete c' hc')
    · exact .inl (by rw [List.mem_singleton.1 hc'])

/-- Keeping the stored channel when the new one has less capacity keeps the invariant. -/
theorem Selects.keep (hs : Selects E m) {cur : ChannelDetails}
    (hcur : m.get? c.counterparty.nodeId = some cur)
    (hlt : c.inboundCapacityMsat < cur.inboundCapacityMsat) : Selects (E ++ [c]) m where
  nodup := hs.nodup
  sound p d h := by
    obtain ⟨hd, hdp, hmaxd⟩ := hs.sound p d h
    refine ⟨List.mem_append_left _ hd, hdp, fun c' hc' hn => ?_⟩
    rcases List.mem_append.1 hc' with hc' | hc'
    · exact hmaxd c' hc' hn
    · rw [List.mem_singleton.1 hc'] at hn ⊢
      rw [hn, h] at hcur
      cases hcur
      exact UInt64.le_iff_toNat_le.2 (Nat.le_of_lt hlt)
  complete c' hc' := by
    rcases List.mem_append.1 hc' with hc' | hc'
    · exact hs.complete c' hc'
    · rw [List.mem_singleton.1 hc']
      exact List.mem_map_of_mem Prod.fst (ChannelMap.mem_of_get?_eq_some hcur)

/-- One pass of the `entry` match keeps the invariant. -/
theorem Selects.selectChannel (hs : Selects E m) (c : ChannelDetails) :
    Selects (E ++ [c]) (selectChannel m c) := by
  unfold Invoice.selectChannel
  split
  · rename_i cur hcur
    split
    · exact hs.keep hcur ‹_›
    · exact hs.insert fun c' hc' hn =>
        UInt64.le_trans ((hs.sound _ _ hcur).2.2 c' hc' hn) (UInt64.not_lt.1 ‹_›)
  · rename_i hnone
    exact hs.insert fun c' hc' hn =>
      absurd (hs.complete c' hc') (hn ▸ ChannelMap.get?_eq_none_iff.1 hnone)

/-- A stored entry is a channel of its key in `E`, of highest capacity among them. -/
theorem Selects.entry (hs : Selects E m) {e : PublicKey × ChannelDetails} (he : e ∈ m) :
    e.2 ∈ E ∧ e.2.counterparty.nodeId = e.1 ∧
      ∀ c' ∈ E, c'.counterparty.nodeId = e.1 →
        c'.inboundCapacityMsat ≤ e.2.inboundCapacityMsat :=
  hs.sound e.1 e.2 (ChannelMap.get?_eq_some_of_mem hs.nodup he)

end Selects

/-- A considered public channel anywhere in the list ends the loop with the early return. -/
theorem filterLoop_eq_none {minInboundCapacity : UInt64} {channels : List ChannelDetails}
    (h : ∃ c ∈ channels, eligible c = true ∧ c.isPublic = true) (m : ChannelMap) (ex : Bool) :
    filterLoop minInboundCapacity channels m ex = none := by
  induction channels generalizing m ex with
  | nil => simp at h
  | cons c channels ih =>
    by_cases he : eligible c = true
    · have hne := skip_eq_false he
      by_cases hp : c.isPublic = true
      · simp [filterLoop, hne, hp]
      · obtain ⟨c', hc', he', hp'⟩ := h
        rcases List.mem_cons.1 hc' with rfl | hc'
        · exact absurd hp' hp
        · simp only [filterLoop, hne, hp, Bool.false_eq_true, ↓reduceIte]
          exact ih ⟨c', hc', he', hp'⟩ _ _
    · have hne := skip_eq_true he
      obtain ⟨c', hc', he', hp'⟩ := h
      rcases List.mem_cons.1 hc' with rfl | hc'
      · exact absurd he' he
      · simp only [filterLoop, hne, ↓reduceIte]
        exact ih ⟨c', hc', he', hp'⟩ _ _

/-- A considered channel keeps `min_capacity_channel_exists` true exactly when one of the
channels considered so far reaches the minimum. -/
theorem minCapacityChannelExists_step {minInboundCapacity : UInt64} {E : List ChannelDetails}
    {ex : Bool} (c : ChannelDetails)
    (hex : ex = true ↔ ∃ c ∈ E, minInboundCapacity ≤ c.inboundCapacityMsat) :
    (if c.inboundCapacityMsat ≥ minInboundCapacity then true else ex) = true ↔
      ∃ c' ∈ E ++ [c], minInboundCapacity ≤ c'.inboundCapacityMsat := by
  simp only [List.mem_append, List.mem_singleton, or_and_right, exists_or, exists_eq_left, ← hex]
  split <;> simp_all

/-- The loop invariant: with no considered public channel the loop runs to the end, the map
selects over the considered channels, and `min_capacity_channel_exists` says whether one of
them reaches the minimum. -/
theorem filterLoop_spec (minInboundCapacity : UInt64) (channels : List ChannelDetails)
    {E : List ChannelDetails} {m : ChannelMap} {ex : Bool} (hs : Selects E m)
    (hex : ex = true ↔ ∃ c ∈ E, minInboundCapacity ≤ c.inboundCapacityMsat)
    (hpriv : ∀ c ∈ channels, eligible c = true → c.isPublic = false) :
    ∃ m' ex', filterLoop minInboundCapacity channels m ex = some (m', ex') ∧
      Selects (E ++ channels.filter eligible) m' ∧
      (ex' = true ↔
        ∃ c ∈ E ++ channels.filter eligible, minInboundCapacity ≤ c.inboundCapacityMsat) := by
  induction channels generalizing E m ex with
  | nil => exact ⟨m, ex, rfl, by simpa using hs, by simpa using hex⟩
  | cons c channels ih =>
    have hpriv' := fun c' hc' => hpriv c' (List.mem_cons_of_mem c hc')
    by_cases he : eligible c = true
    · have hne := skip_eq_false he
      have hp := hpriv c (List.mem_cons_self c channels) he
      obtain ⟨m', ex', h, hs', hex''⟩ :=
        ih (hs.selectChannel c) (minCapacityChannelExists_step c hex) hpriv'
      simp only [List.append_assoc, List.singleton_append] at hs' hex''
      refine ⟨m', ex', ?_, ?_, ?_⟩
      · simpa [filterLoop, hne, hp] using h
      · simpa [List.filter_cons, he] using hs'
      · simpa [List.filter_cons, he] using hex''
    · have hne := skip_eq_true he
      obtain ⟨m', ex', h, hs', hex''⟩ := ih hs hex hpriv'
      refine ⟨m', ex', ?_, ?_, ?_⟩
      · simpa [filterLoop, hne] using h
      · simpa [List.filter_cons, he] using hs'
      · simpa [List.filter_cons, he] using hex''

/-- The closure `route_hint_from_channel`; `none` where an `unwrap` would panic. -/
def routeHintFromChannel (channel : ChannelDetails) : Option RouteHint := do
  let forwardingInfo ← channel.counterparty.forwardingInfo
  let shortChannelId ← channel.getInboundPaymentScid
  pure ⟨[{ srcNodeId := channel.counterparty.nodeId
           shortChannelId := shortChannelId
           fees := { baseMsat := forwardingInfo.feeBaseMsat
                     proportionalMillionths := forwardingInfo.feeProportionalMillionths }
           cltvExpiryDelta := forwardingInfo.cltvExpiryDelta
           htlcMinimumMsat := none
           htlcMaximumMsat := none }]⟩

/-- `filter_channels`; `none` would be a panic, which `filterChannels_isSome` rules out. -/
def filterChannels (channels : List ChannelDetails) (minInboundCapacityMsat : Option UInt64) :
    Option (List RouteHint) :=
  let minInboundCapacity := minInboundCapacityMsat.getD 0
  match filterLoop minInboundCapacity channels [] false with
  | none => some []
  | some (filteredChannels, minCapacityChannelExists) =>
      (filteredChannels.filter fun entry =>
          minCapacityChannelExists && entry.2.inboundCapacityMsat ≥ minInboundCapacity ||
            !minCapacityChannelExists).mapM
        fun entry => routeHintFromChannel entry.2

/-! ## The hints -/

theorem mapM_eq_some_map {α β : Type} {f : α → Option β} {g : α → β} :
    ∀ {l : List α}, (∀ a ∈ l, f a = some (g a)) → l.mapM f = some (l.map g)
  | [], _ => rfl
  | a :: l, h => by
    rw [List.mapM_cons, h a (List.mem_cons_self a l),
      mapM_eq_some_map fun b hb => h b (List.mem_cons_of_mem a hb)]
    rfl

/-- A considered channel gives a one-hop hint from its counterparty, with its scid, fees and
CLTV delta. -/
theorem routeHintFromChannel_of_eligible {c : ChannelDetails} (h : eligible c = true) :
    ∃ scid info, c.getInboundPaymentScid = some scid ∧
      c.counterparty.forwardingInfo = some info ∧
      routeHintFromChannel c = some ⟨[⟨c.counterparty.nodeId, scid,
        ⟨info.feeBaseMsat, info.feeProportionalMillionths⟩, info.cltvExpiryDelta,
        none, none⟩]⟩ := by
  unfold eligible at h
  cases hs : c.getInboundPaymentScid with
  | none => simp [hs] at h
  | some scid =>
    cases hf : c.counterparty.forwardingInfo with
    | none => simp [hf] at h
    | some info => exact ⟨scid, info, rfl, rfl, by simp [routeHintFromChannel, hs, hf]⟩

/-- The hint built from a considered channel, or an empty one for a channel the loop skips. -/
def hintOf (c : ChannelDetails) : RouteHint := (routeHintFromChannel c).getD ⟨[]⟩

/-- Each stored entry gives one hint from its key. -/
theorem flatMap_hintOf {l : ChannelMap}
    (h : ∀ e ∈ l, eligible e.2 = true ∧ e.2.counterparty.nodeId = e.1) :
    ((l.map fun e => hintOf e.2).flatMap fun hint => hint.hops.map (·.srcNodeId)) = l.keys := by
  induction l with
  | nil => rfl
  | cons e l ih =>
    obtain ⟨he, hk⟩ := h e (List.mem_cons_self e l)
    obtain ⟨scid, info, -, -, hr⟩ := routeHintFromChannel_of_eligible he
    rw [List.map_cons, List.flatMap_cons, ih fun e' he' => h e' (List.mem_cons_of_mem e he'),
      ChannelMap.keys_cons]
    simp [hintOf, hr, hk]

/-- The closure of the final `filter`: when some channel reaches the minimum, keep the entries
that reach it, otherwise keep every entry. -/
def keepEntry (minCapacityChannelExists : Bool) (minInboundCapacity : UInt64)
    (entry : PublicKey × ChannelDetails) : Bool :=
  minCapacityChannelExists && entry.2.inboundCapacityMsat ≥ minInboundCapacity ||
    !minCapacityChannelExists

/-- The counterparties the capacity filter keeps: those of `E`, narrowed to those with a
channel reaching the minimum when some channel of `E` does. -/
theorem Selects.mem_keys_filter_iff {E : List ChannelDetails} {m : ChannelMap} (hs : Selects E m)
    {ex : Bool} {minInboundCapacity : UInt64}
    (hex : ex = true ↔ ∃ c ∈ E, minInboundCapacity ≤ c.inboundCapacityMsat) (p : PublicKey) :
    p ∈ ChannelMap.keys (m.filter (keepEntry ex minInboundCapacity)) ↔
      (∃ c ∈ E, c.counterparty.nodeId = p) ∧
      ((∃ c ∈ E, minInboundCapacity ≤ c.inboundCapacityMsat) →
        ∃ c ∈ E, c.counterparty.nodeId = p ∧ minInboundCapacity ≤ c.inboundCapacityMsat) := by
  simp only [ChannelMap.keys, List.mem_map, List.mem_filter]
  constructor
  · rintro ⟨e, ⟨he, hkeep⟩, rfl⟩
    obtain ⟨hE, hk, -⟩ := hs.entry he
    refine ⟨⟨e.2, hE, hk⟩, fun hmin => ⟨e.2, hE, hk, ?_⟩⟩
    simpa [keepEntry, hex.2 hmin] using hkeep
  · rintro ⟨⟨c, hc, rfl⟩, hmin⟩
    obtain ⟨e, he, hk⟩ := List.mem_map.1 (hs.complete c hc)
    refine ⟨e, ⟨he, ?_⟩, hk⟩
    cases hexb : ex
    · simp [keepEntry]
    · obtain ⟨c', hc', hk', hle⟩ := hmin (hex.1 hexb)
      simp [keepEntry, UInt64.le_trans hle ((hs.entry he).2.2 c' hc' (hk'.trans hk.symm))]

/-- With no considered public channel, `filter_channels` returns the hints of the entries of
a selecting map that pass the capacity filter. -/
theorem filterChannels_of_private (channels : List ChannelDetails)
    (minInboundCapacityMsat : Option UInt64)
    (hpriv : ∀ c ∈ channels, eligible c = true → c.isPublic = false) :
    ∃ m ex, Selects (channels.filter eligible) m ∧
      (ex = true ↔ ∃ c ∈ channels.filter eligible,
        minInboundCapacityMsat.getD 0 ≤ c.inboundCapacityMsat) ∧
      filterChannels channels minInboundCapacityMsat =
        some ((m.filter (keepEntry ex (minInboundCapacityMsat.getD 0))).map
          fun e => hintOf e.2) := by
  obtain ⟨m, ex, hl, hs, hex⟩ := @filterLoop_spec (minInboundCapacityMsat.getD 0) channels
    [] [] false selects_nil (by simp) hpriv
  rw [List.nil_append] at hs hex
  refine ⟨m, ex, hs, hex, ?_⟩
  simp only [filterChannels, hl]
  refine mapM_eq_some_map fun e he => ?_
  obtain ⟨scid, info, -, -, hr⟩ :=
    routeHintFromChannel_of_eligible (List.mem_filter.1 (hs.entry (List.mem_filter.1 he).1).1).2
  simp [hintOf, hr]

/-! ## The selection rule -/

/-- `filter_channels` never panics and follows its documented rule. With `E` the channels that
have an inbound scid and forwarding info and `min` the minimum capacity (`0` if none): a public
channel in `E` gives no hints; otherwise there is one single-hop hint per chosen counterparty,
built from a channel of it in `E` of highest inbound capacity and carrying that channel's scid,
fees and CLTV delta; the counterparties are those of `E`, narrowed to those reaching `min`
when some channel of `E` does; and the hints are not empty when `E` is not. -/
theorem filter_channels_selection_rule (channels : List ChannelDetails)
    (minInboundCapacityMsat : Option UInt64) :
    ∃ hints, filterChannels channels minInboundCapacityMsat = some hints ∧
      ((∃ c ∈ channels, eligible c = true ∧ c.isPublic = true) → hints = []) ∧
      ((∀ c ∈ channels, eligible c = true → c.isPublic = false) →
        (∀ hint ∈ hints, ∃ c ∈ channels, eligible c = true ∧
          (∃ scid info, c.getInboundPaymentScid = some scid ∧
            c.counterparty.forwardingInfo = some info ∧
            hint = ⟨[⟨c.counterparty.nodeId, scid,
              ⟨info.feeBaseMsat, info.feeProportionalMillionths⟩, info.cltvExpiryDelta,
              none, none⟩]⟩) ∧
          ∀ c' ∈ channels, eligible c' = true →
            c'.counterparty.nodeId = c.counterparty.nodeId →
            c'.inboundCapacityMsat ≤ c.inboundCapacityMsat) ∧
        (hints.flatMap fun hint => hint.hops.map (·.srcNodeId)).Nodup ∧
        (∀ p, p ∈ (hints.flatMap fun hint => hint.hops.map (·.srcNodeId)) ↔
          (∃ c ∈ channels, eligible c = true ∧ c.counterparty.nodeId = p) ∧
          ((∃ c ∈ channels, eligible c = true ∧
              minInboundCapacityMsat.getD 0 ≤ c.inboundCapacityMsat) →
            ∃ c ∈ channels, eligible c = true ∧ c.counterparty.nodeId = p ∧
              minInboundCapacityMsat.getD 0 ≤ c.inboundCapacityMsat)) ∧
        ((∃ c ∈ channels, eligible c = true) → hints ≠ [])) := by
  by_cases hpub : ∃ c ∈ channels, eligible c = true ∧ c.isPublic = true
  · refine ⟨[], by simp [filterChannels, filterLoop_eq_none hpub], fun _ => rfl, fun hpriv => ?_⟩
    obtain ⟨c, hc, he, hp⟩ := hpub
    simp [hpriv c hc he] at hp
  have hpriv : ∀ c ∈ channels, eligible c = true → c.isPublic = false := fun c hc he =>
    Bool.eq_false_iff.2 fun hp => hpub ⟨c, hc, he, hp⟩
  obtain ⟨m, ex, hs, hex, hf⟩ := filterChannels_of_private channels minInboundCapacityMsat hpriv
  have hnodes : (((m.filter (keepEntry ex (minInboundCapacityMsat.getD 0))).map
      fun e => hintOf e.2).flatMap fun hint => hint.hops.map (·.srcNodeId)) =
        ChannelMap.keys (m.filter (keepEntry ex (minInboundCapacityMsat.getD 0))) :=
    flatMap_hintOf fun e he =>
      ⟨(List.mem_filter.1 (hs.entry (List.mem_filter.1 he).1).1).2,
        (hs.entry (List.mem_filter.1 he).1).2.1⟩
  have hmem := hs.mem_keys_filter_iff hex
  simp only [List.mem_filter, and_assoc] at hmem
  refine ⟨_, hf, fun h => absurd h hpub, fun _ => ⟨?_, ?_, fun p => by rw [hnodes, hmem], ?_⟩⟩
  · intro hint hh
    obtain ⟨e, he, rfl⟩ := List.mem_map.1 hh
    obtain ⟨hE, hk, hmax⟩ := hs.entry (List.mem_filter.1 he).1
    obtain ⟨hc, hel⟩ := List.mem_filter.1 hE
    obtain ⟨scid, info, hscid, hinfo, hr⟩ := routeHintFromChannel_of_eligible hel
    exact ⟨e.2, hc, hel, ⟨scid, info, hscid, hinfo, by simp [hintOf, hr]⟩,
      fun c' hc' hel' hk' => hmax c' (List.mem_filter.2 ⟨hc', hel'⟩) (hk'.trans hk)⟩
  · rw [hnodes]
    exact hs.nodup.sublist ((List.filter_sublist m).map Prod.fst)
  · rintro ⟨c, hc, hel⟩ hnil
    -- a counterparty survives the filter: one reaching the minimum, or else any
    obtain ⟨p, hp⟩ :
        ∃ p, p ∈ ChannelMap.keys (m.filter (keepEntry ex (minInboundCapacityMsat.getD 0))) := by
      by_cases hmin : ∃ c ∈ channels, eligible c = true ∧
          minInboundCapacityMsat.getD 0 ≤ c.inboundCapacityMsat
      · obtain ⟨c₁, hc₁, hel₁, hle₁⟩ := hmin
        exact ⟨_, (hmem _).2 ⟨⟨c₁, hc₁, hel₁, rfl⟩, fun _ => ⟨c₁, hc₁, hel₁, rfl, hle₁⟩⟩⟩
      · exact ⟨_, (hmem _).2 ⟨⟨c, hc, hel, rfl⟩, fun h => absurd h hmin⟩⟩
    rw [← hnodes, hnil] at hp
    simp at hp

/-- Every hint `filter_channels` gives is the hint of one of the channels it considers. -/
theorem mem_filterChannels {channels : List ChannelDetails} {minInboundCapacityMsat : Option UInt64}
    {hints : List RouteHint} (hf : filterChannels channels minInboundCapacityMsat = some hints)
    {hint : RouteHint} (hh : hint ∈ hints) :
    ∃ c ∈ channels, eligible c = true ∧ hint = hintOf c := by
  by_cases hpub : ∃ c ∈ channels, eligible c = true ∧ c.isPublic = true
  · simp only [filterChannels, filterLoop_eq_none hpub, Option.some.injEq] at hf
    exact absurd (hf ▸ hh) (List.not_mem_nil _)
  · obtain ⟨m, ex, hs, -, hf'⟩ := filterChannels_of_private channels minInboundCapacityMsat
      fun c hc he => Bool.eq_false_iff.2 fun hp => hpub ⟨c, hc, he, hp⟩
    rw [hf, Option.some.injEq] at hf'
    obtain ⟨e, he, rfl⟩ := List.mem_map.1 (hf' ▸ hh)
    obtain ⟨hc, hel⟩ := List.mem_filter.1 (hs.entry (List.mem_filter.1 he).1).1
    exact ⟨e.2, hc, hel, rfl⟩

/-! ## Phantom invoices -/

/-- Modelled from the spec: `PhantomRouteHints`, one participating node's usable channels, the
scid of the phantom node and the participating node's real public key. -/
structure PhantomRouteHints where
  channels : List ChannelDetails
  phantomScid : UInt64
  realNodePubkey : PublicKey

/-- The hop from a participating node to the phantom node: free, with the minimum CLTV delta
(`MIN_CLTV_EXPIRY_DELTA`, whose value is not in the sources). -/
def phantomHop (minCltvExpiryDelta : UInt16) (hint : PhantomRouteHints) : RouteHintHop :=
  { srcNodeId := hint.realNodePubkey
    shortChannelId := hint.phantomScid
    fees := { baseMsat := 0, proportionalMillionths := 0 }
    cltvExpiryDelta := minCltvExpiryDelta
    htlcMinimumMsat := none
    htlcMaximumMsat := none }

/-- The body of the inner loop of `create_phantom_invoice` for one channel of a participating
node: a two-hop hint through the channel's counterparty and the node to the phantom scid, or
`none` for the `continue` on a channel without an inbound scid or forwarding info. -/
def phantomRouteHint (minCltvExpiryDelta : UInt16) (hint : PhantomRouteHints)
    (channel : ChannelDetails) : Option RouteHint := do
  let shortChannelId ← channel.getInboundPaymentScid
  let forwardingInfo ← channel.counterparty.forwardingInfo
  pure ⟨[{ srcNodeId := channel.counterparty.nodeId
           shortChannelId := shortChannelId
           fees := { baseMsat := forwardingInfo.feeBaseMsat
                     proportionalMillionths := forwardingInfo.feeProportionalMillionths }
           cltvExpiryDelta := forwardingInfo.cltvExpiryDelta
           htlcMinimumMsat := none
           htlcMaximumMsat := none },
         phantomHop minCltvExpiryDelta hint]⟩

/-- The route-hint loops of `create_phantom_invoice`, over every participating node and every
channel of it. -/
def phantomRouteHints (minCltvExpiryDelta : UInt16) (phantomRouteHints : List PhantomRouteHints) :
    List RouteHint :=
  phantomRouteHints.flatMap fun hint =>
    hint.channels.filterMap (phantomRouteHint minCltvExpiryDelta hint)

/-- A considered channel gets the hint `filter_channels` would give it, extended by the hop to
the phantom node; the others get none. -/
theorem phantomRouteHint_eq (minCltvExpiryDelta : UInt16) (hint : PhantomRouteHints)
    (channel : ChannelDetails) :
    phantomRouteHint minCltvExpiryDelta hint channel =
      if eligible channel then
        some ⟨(hintOf channel).hops ++ [phantomHop minCltvExpiryDelta hint]⟩
      else none := by
  by_cases he : eligible channel = true
  · obtain ⟨scid, info, hscid, hinfo, hr⟩ := routeHintFromChannel_of_eligible he
    simp [phantomRouteHint, he, hscid, hinfo, hintOf, hr]
  · rw [if_neg he]
    unfold phantomRouteHint
    cases hscid : channel.getInboundPaymentScid <;>
      cases hinfo : channel.counterparty.forwardingInfo <;> simp_all [eligible]

/-- A phantom invoice carries one two-hop hint per considered channel of every participating
node, in order: the hint `filter_channels` would give the channel, then the free hop from the
node to the phantom scid. -/
theorem phantomRouteHints_eq (minCltvExpiryDelta : UInt16) (hints : List PhantomRouteHints) :
    phantomRouteHints minCltvExpiryDelta hints =
      hints.flatMap fun hint => (hint.channels.filter eligible).map fun channel =>
        ⟨(hintOf channel).hops ++ [phantomHop minCltvExpiryDelta hint]⟩ := by
  unfold phantomRouteHints
  congr 1
  funext hint
  induction hint.channels with
  | nil => rfl
  | cons c cs ih =>
    rw [List.filterMap_cons, phantomRouteHint_eq, List.filter_cons]
    by_cases he : eligible c = true <;> simp [he, ih]

/-- A phantom invoice drops none of the hints an invoice of one participating node would carry:
each hint `filter_channels` chooses among the node's channels is, extended by the free hop from
the node to the phantom scid, a hint of the phantom invoice. The phantom invoice carries one
hint for each channel with an inbound scid and forwarding info of every node, public channels
and every channel of a counterparty included, where `filter_channels` keeps one per
counterparty and none once it meets a public channel. -/
theorem phantom_hints_cover_filter_channels (minCltvExpiryDelta : UInt16)
    (hints : List PhantomRouteHints) (minInboundCapacityMsat : Option UInt64) :
    (∀ hint ∈ hints, ∀ chosen, filterChannels hint.channels minInboundCapacityMsat = some chosen →
      ∀ h ∈ chosen, (⟨h.hops ++ [phantomHop minCltvExpiryDelta hint]⟩ : RouteHint) ∈
        phantomRouteHints minCltvExpiryDelta hints) ∧
    (phantomRouteHints minCltvExpiryDelta hints).length =
      (hints.flatMap fun hint => hint.channels.filter eligible).length := by
  rw [phantomRouteHints_eq]
  refine ⟨fun hint hmem chosen hf h hh => ?_, ?_⟩
  · obtain ⟨c, hc, hel, rfl⟩ := mem_filterChannels hf hh
    exact List.mem_flatMap.2 ⟨hint, hmem, List.mem_map.2 ⟨c, List.mem_filter.2 ⟨hc, hel⟩, rfl⟩⟩
  · simp only [List.length_flatMap, List.length_map, Function.comp_def]

end Lightning.Invoice
