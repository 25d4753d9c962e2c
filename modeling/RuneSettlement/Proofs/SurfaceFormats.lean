import RuneSettlement.Surface.Config
import RuneSettlement.Surface.Refusals
import RuneSettlement.Surface.Requests
import RuneSettlement.Surface.Views
import RuneSettlement.Proofs.Formats
import RuneSettlement.Proofs.IdentifierText

/-!
# The service surface is read back as written

Every type of the service surface has a faithful format. So a value that names no rune of block 0 is
read back from its text, and so is every value that was read from some text (`surface_read_back`).
A record is read field by field: `bind_eq_some` goes through the fields of what was written, and
`yields_bind` through those of any text.
-/

namespace RuneSettlement

open JsonFormat

/-! ### Identifiers -/

instance : Naming Txid := ⟨fun _ => []⟩

instance : Naming OutPoint := ⟨fun _ => []⟩

instance : Naming CoinId := ⟨fun id => [id]⟩

instance : AssetFree Txid := ⟨fun _ => rfl⟩

instance : AssetFree OutPoint := ⟨fun _ => rfl⟩

lemma etched_coinId {id : CoinId} : Etched id ↔ id.inGenesisBlock = false :=
  List.forall_mem_singleton

instance : Faithful Txid where
  plain_toJson txid := .text txid.text
  ofJson?_toJson {txid} _ := Outcome.toOption_eq_some_iff.2 txid.parse_text
  yields_ofJson? _ := yields_etched _

instance : Faithful OutPoint where
  plain_toJson o := .text o.text
  ofJson?_toJson {o} _ := Outcome.toOption_eq_some_iff.2 o.parse_text
  yields_ofJson? _ := yields_etched _

instance : Faithful CoinId where
  plain_toJson id := .text id.text
  ofJson?_toJson h := Outcome.toOption_eq_some_iff.2 (CoinId.parse_text (etched_coinId.1 h))
  yields_ofJson? j := by
    refine yields_bind fun text id hid => ?_
    exact etched_coinId.2 (CoinId.inGenesisBlock_of_parse (Outcome.toOption_eq_some_iff.1 hid))

/-! ### Coins, reserves and outputs -/

instance : Naming Coin := ⟨fun c => Naming.assets c.id⟩

lemma etched_coin {c : Coin} : Etched c ↔ Etched c.id := Iff.rfl

instance : Faithful Coin where
  plain_toJson _ := .record (by simp [plain_toJson])
  ofJson?_toJson {c} h := by
    have hfields : fields? ["id", "value"] (toJson c) =
        some [some (toJson c.id), some (toJson c.value)] :=
      fields?_record rfl (by decide)
    refine bind_eq_some hfields ?_
    refine bind_eq_some (required_toJson (etched_coin.1 h)) ?_
    refine bind_eq_some (required_assetFree _) ?_
    rfl
  yields_ofJson? _ := by
    refine yields_bind fun fields => ?_
    split
    · refine (yields_required _).bind fun _ hid => ?_
      refine yields_bind fun _ => ?_
      exact yields_some (etched_coin.2 hid)
    · exact yields_none

instance : NeverNull Coin := ⟨fun _ => nofun⟩

instance : Naming (SortedMap CoinId Amount) := ⟨SortedMap.keys⟩

lemma etched_tokens {m : SortedMap CoinId Amount} : Etched m ↔ ∀ e ∈ m.entries, Etched e.1 := by
  simp [Etched, Naming.assets, SortedMap.keys]

namespace SortedMap

variable {κ α : Type} [Key κ]

lemma insertEntry_of_before {k : κ} (v : α) {es : List (κ × α)}
    (h : ∀ e ∈ es, Key.before e.1 k = true) : insertEntry k v es = es ++ [(k, v)] := by
  induction es with
  | nil => rfl
  | cons e es ih =>
    obtain ⟨he, hes⟩ := List.forall_mem_cons.1 h
    rw [insertEntry, if_pos he, ih hes, List.cons_append]

lemma entries_foldl_insert {m : SortedMap κ α} {es : List (κ × α)}
    (h : (m.entries ++ es).Pairwise fun a b => Key.before a.1 b.1 = true) :
    (es.foldl (fun m e => m.insert e.1 e.2) m).entries = m.entries ++ es := by
  -- The entries still to come lie beyond those of the map, so each insertion appends one.
  induction es generalizing m with
  | nil => simp
  | cons e es ih =>
    have hbefore : ∀ d ∈ m.entries, Key.before d.1 e.1 = true := fun d hd =>
      (List.pairwise_append.1 h).2.2 d hd e List.mem_cons_self
    have hinsert : (m.insert e.1 e.2).entries = m.entries ++ [e] :=
      insertEntry_of_before e.2 hbefore
    have hsplit : (m.insert e.1 e.2).entries ++ es = m.entries ++ e :: es := by
      rw [hinsert, List.append_assoc, List.singleton_append]
    rw [List.foldl_cons, ih (hsplit ▸ h), hsplit]

lemma ext_entries {m n : SortedMap κ α} (h : m.entries = n.entries) : m = n := by
  cases m
  cases n
  congr 1

/-- A map is the map of its entries. -/
theorem ofList_entries (m : SortedMap κ α) : ofList m.entries = m :=
  ext_entries (entries_foldl_insert m.ascending)

lemma mem_entries_foldl_insert {m : SortedMap κ α} {pairs : List (κ × α)} {e : κ × α}
    (h : e ∈ (pairs.foldl (fun m e => m.insert e.1 e.2) m).entries) :
    e ∈ m.entries ∨ e ∈ pairs := by
  induction pairs generalizing m with
  | nil => exact .inl h
  | cons p pairs ih =>
    rcases ih h with h | h
    · rcases mem_insertEntry h with rfl | h
      · exact .inr List.mem_cons_self
      · exact .inl h
    · exact .inr (List.mem_cons_of_mem p h)

lemma mem_of_mem_ofList {pairs : List (κ × α)} {e : κ × α} (h : e ∈ (ofList pairs).entries) :
    e ∈ pairs := by
  rcases mem_entries_foldl_insert h with h | h
  · cases h
  · exact h

end SortedMap

namespace Reserves

lemma tokenOf?_toJson {id : CoinId} (h : Etched id) (amount : Amount) :
    tokenOf? (some id.text, toJson amount) = some (id, amount) := by
  have hid : (CoinId.parse id.text).toOption = some id :=
    Outcome.toOption_eq_some_iff.2 (CoinId.parse_text (etched_coinId.1 h))
  refine bind_eq_some rfl (bind_eq_some hid (bind_eq_some ?_ rfl))
  exact ofJson?_toJson (etched_of_assetFree amount)

lemma yields_tokenOf? (field : Option String × Json) :
    Yields (tokenOf? field) fun e => Etched e.1 := by
  refine yields_bind fun name => Yields.bind (P := Etched) ?_ fun id hid => ?_
  · exact fun id h =>
      etched_coinId.2 (CoinId.inGenesisBlock_of_parse (Outcome.toOption_eq_some_iff.1 h))
  · exact yields_bind fun amount => yields_some hid

end Reserves

instance : Faithful (SortedMap CoinId Amount) where
  plain_toJson m := by
    refine .record fun f hf => ?_
    obtain ⟨e, -, rfl⟩ := List.mem_map.1 hf
    exact plain_toJson e.2
  ofJson?_toJson {m} h := by
    have htokens : ((m.entries.map fun e => (e.1.text, toJson e.2)).map
        fun f => (some f.1, f.2)).mapM Reserves.tokenOf? = some (m.entries.map id) := by
      rw [List.map_map, List.mapM_map]
      exact mapM_eq_some_map fun e he => Reserves.tokenOf?_toJson (etched_tokens.1 h e he) e.2
    have hread : ofJson? (toJson m) = some (SortedMap.ofList (m.entries.map id)) :=
      congrArg (Option.map SortedMap.ofList) htokens
    rw [hread, List.map_id, SortedMap.ofList_entries]
  yields_ofJson? j := by
    cases j with
    | object fields =>
      intro m hm
      obtain ⟨pairs, hpairs, rfl⟩ := Option.map_eq_some_iff.1 hm
      refine etched_tokens.2 fun e he => ?_
      exact yields_mapM Reserves.yields_tokenOf? fields pairs hpairs e
        (SortedMap.mem_of_mem_ofList he)
    | _ => exact yields_none

instance : Naming Reserves := ⟨fun r => Naming.assets r.tokens⟩

lemma etched_reserves {r : Reserves} : Etched r ↔ Etched r.tokens := Iff.rfl

instance : Faithful Reserves where
  plain_toJson _ := .record (by simp [plain_toJson])
  ofJson?_toJson {r} h := by
    have hfields : fields? ["native", "tokens"] (toJson r) =
        some [some (toJson r.native), some (toJson r.tokens)] :=
      fields?_record rfl (by decide)
    refine bind_eq_some hfields ?_
    refine bind_eq_some (required_assetFree _) ?_
    refine bind_eq_some (required_toJson (etched_reserves.1 h)) ?_
    rfl
  yields_ofJson? _ := by
    refine yields_bind fun fields => ?_
    split
    · refine yields_bind fun _ => ?_
      refine (yields_required _).bind fun _ htokens => ?_
      exact yields_some (etched_reserves.2 htokens)
    · exact yields_none

instance : Naming Utxo := ⟨fun u => Naming.assets u.rune⟩

lemma etched_utxo {u : Utxo} : Etched u ↔ Etched u.rune := Iff.rfl

instance : Faithful Utxo where
  plain_toJson _ := .record (by simp [plain_toJson])
  ofJson?_toJson {u} h := by
    have hfields : fields? ["txid", "vout", "sats", "maybe_rune"] (toJson u) =
        some [some (toJson u.outpoint.txid), some (toJson u.outpoint.vout), some (toJson u.sats),
          some (toJson u.rune)] :=
      fields?_record rfl (by decide)
    refine bind_eq_some hfields ?_
    iterate 3 refine bind_eq_some (required_assetFree _) ?_
    refine bind_eq_some (nullable_toJson (etched_utxo.1 h)) ?_
    rfl
  yields_ofJson? _ := by
    refine yields_bind fun fields => ?_
    split
    · iterate 3 refine yields_bind fun _ => ?_
      refine (yields_nullable _).bind fun _ hrune => ?_
      exact yields_some (etched_utxo.2 hrune)
    · exact yields_none

/-! ### Intentions and requests -/

instance : Naming InputCoin := ⟨fun c => Naming.assets c.coin⟩

instance : Naming OutputCoin := ⟨fun c => Naming.assets c.coin⟩

instance : Naming Intention := ⟨fun i => Naming.assets i.inputs ++ Naming.assets i.outputs⟩

instance : Naming IntentionSet := ⟨fun s => Naming.assets s.intentions⟩

instance : Naming ExecuteRequest := ⟨fun r => Naming.assets r.set⟩

lemma etched_inputCoin {c : InputCoin} : Etched c ↔ Etched c.coin := Iff.rfl

lemma etched_outputCoin {c : OutputCoin} : Etched c ↔ Etched c.coin := Iff.rfl

lemma etched_intention {i : Intention} : Etched i ↔ Etched i.inputs ∧ Etched i.outputs :=
  List.forall_mem_append

lemma etched_intentionSet {s : IntentionSet} : Etched s ↔ Etched s.intentions := Iff.rfl

lemma etched_executeRequest {r : ExecuteRequest} : Etched r ↔ Etched r.set := Iff.rfl

instance : Faithful InputCoin where
  plain_toJson _ := .record (by simp [plain_toJson])
  ofJson?_toJson {c} h := by
    have hfields : fields? ["from", "coin"] (toJson c) =
        some [some (toJson c.source), some (toJson c.coin)] :=
      fields?_record rfl (by decide)
    refine bind_eq_some hfields ?_
    refine bind_eq_some (required_assetFree _) ?_
    refine bind_eq_some (required_toJson (etched_inputCoin.1 h)) ?_
    rfl
  yields_ofJson? _ := by
    refine yields_bind fun fields => ?_
    split
    · refine yields_bind fun _ => ?_
      refine (yields_required _).bind fun _ hcoin => ?_
      exact yields_some (etched_inputCoin.2 hcoin)
    · exact yields_none

instance : Faithful OutputCoin where
  plain_toJson _ := .record (by simp [plain_toJson])
  ofJson?_toJson {c} h := by
    have hfields : fields? ["to", "coin"] (toJson c) =
        some [some (toJson c.destination), some (toJson c.coin)] :=
      fields?_record rfl (by decide)
    refine bind_eq_some hfields ?_
    refine bind_eq_some (required_assetFree _) ?_
    refine bind_eq_some (required_toJson (etched_outputCoin.1 h)) ?_
    rfl
  yields_ofJson? _ := by
    refine yields_bind fun fields => ?_
    split
    · refine yields_bind fun _ => ?_
      refine (yields_required _).bind fun _ hcoin => ?_
      exact yields_some (etched_outputCoin.2 hcoin)
    · exact yields_none

instance : Faithful Intention where
  plain_toJson _ := .record (by simp [Intention.fieldNames, plain_toJson])
  ofJson?_toJson {i} h := by
    obtain ⟨hinputs, houtputs⟩ := etched_intention.1 h
    have hfields : fields? Intention.fieldNames (toJson i) =
        some [some (toJson i.exchangeId), some (toJson i.action), some (toJson i.parameters),
          some (toJson i.pool), some (toJson i.nonce), some (toJson i.spends),
          some (toJson i.receives), some (toJson i.inputs), some (toJson i.outputs)] :=
      fields?_record rfl (by decide)
    refine bind_eq_some hfields ?_
    iterate 7 refine bind_eq_some (required_assetFree _) ?_
    refine bind_eq_some (required_toJson hinputs) ?_
    refine bind_eq_some (required_toJson houtputs) ?_
    rfl
  yields_ofJson? _ := by
    refine yields_bind fun fields => ?_
    split
    · iterate 7 refine yields_bind fun _ => ?_
      refine (yields_required _).bind fun _ hinputs => ?_
      refine (yields_required _).bind fun _ houtputs => ?_
      exact yields_some (etched_intention.2 ⟨hinputs, houtputs⟩)
    · exact yields_none

instance : Faithful IntentionSet where
  plain_toJson _ := .record (by simp [plain_toJson])
  ofJson?_toJson {s} h := by
    have hfields : fields? ["initiator_address", "intentions"] (toJson s) =
        some [some (toJson s.initiator), some (toJson s.intentions)] :=
      fields?_record rfl (by decide)
    refine bind_eq_some hfields ?_
    refine bind_eq_some (required_assetFree _) ?_
    refine bind_eq_some (required_toJson (etched_intentionSet.1 h)) ?_
    rfl
  yields_ofJson? _ := by
    refine yields_bind fun fields => ?_
    split
    · refine yields_bind fun _ => ?_
      refine (yields_required _).bind fun _ hintentions => ?_
      exact yields_some (etched_intentionSet.2 hintentions)
    · exact yields_none

instance : Faithful ExecuteRequest where
  plain_toJson _ := .record (by simp [ExecuteRequest.fieldNames, plain_toJson])
  ofJson?_toJson {r} h := by
    have hfields : fields? ExecuteRequest.fieldNames (toJson r) =
        some [some (toJson r.payload), some (toJson r.txid), some (toJson r.set),
          some (toJson r.index), some (toJson r.queueLength)] :=
      fields?_record rfl (by decide)
    refine bind_eq_some hfields ?_
    refine bind_eq_some (required_assetFree _) ?_
    refine bind_eq_some (required_assetFree _) ?_
    refine bind_eq_some (required_toJson (etched_executeRequest.1 h)) ?_
    refine bind_eq_some (required_assetFree _) ?_
    refine bind_eq_some (required_assetFree _) ?_
    rfl
  yields_ofJson? _ := by
    refine yields_bind fun fields => ?_
    split
    · iterate 2 refine yields_bind fun _ => ?_
      refine (yields_required _).bind fun _ hset => ?_
      iterate 2 refine yields_bind fun _ => ?_
      exact yields_some (etched_executeRequest.2 hset)
    · exact yields_none

instance : Naming ResolveRequest := ⟨fun _ => []⟩

instance : Naming FloorRequest := ⟨fun _ => []⟩

instance : Naming PoolRequest := ⟨fun _ => []⟩

instance : Naming PageRequest := ⟨fun _ => []⟩

instance : AssetFree ResolveRequest := ⟨fun _ => rfl⟩

instance : AssetFree FloorRequest := ⟨fun _ => rfl⟩

instance : AssetFree PoolRequest := ⟨fun _ => rfl⟩

instance : AssetFree PageRequest := ⟨fun _ => rfl⟩

instance : Faithful ResolveRequest where
  plain_toJson _ := .record (by simp [plain_toJson])
  ofJson?_toJson {r} _ := by
    have hfields : fields? ["txid", "pool_key"] (toJson r) =
        some [some (toJson r.txid), some (toJson r.poolKey)] :=
      fields?_record rfl (by decide)
    refine bind_eq_some hfields ?_
    refine bind_eq_some (required_assetFree _) ?_
    refine bind_eq_some (required_assetFree _) ?_
    rfl
  yields_ofJson? _ := yields_etched _

instance : Faithful FloorRequest where
  plain_toJson _ := .record (by simp [plain_toJson])
  ofJson?_toJson {r} _ := by
    have hfields : fields? ["pool_address", "zero_confirmed_tx_queue_length"] (toJson r) =
        some [some (toJson r.pool), some (toJson r.queueLength)] :=
      fields?_record rfl (by decide)
    refine bind_eq_some hfields ?_
    refine bind_eq_some (required_assetFree _) ?_
    refine bind_eq_some (required_assetFree _) ?_
    rfl
  yields_ofJson? _ := yields_etched _

instance : Faithful PoolRequest where
  plain_toJson _ := .record (by simp [plain_toJson])
  ofJson?_toJson {r} _ := by
    have hfields : fields? ["pool_address"] (toJson r) =
        some [some (toJson r.pool)] :=
      fields?_record rfl (by decide)
    refine bind_eq_some hfields ?_
    refine bind_eq_some (required_assetFree _) ?_
    rfl
  yields_ofJson? _ := yields_etched _

instance : Faithful PageRequest where
  plain_toJson _ := .record (by simp [plain_toJson])
  ofJson?_toJson {r} _ := by
    have hfields : fields? ["from", "limit"] (toJson r) =
        some [some (toJson r.start), some (toJson r.limit)] :=
      fields?_record rfl (by decide)
    refine bind_eq_some hfields ?_
    refine bind_eq_some (nullable_toJson (etched_of_assetFree _)) ?_
    refine bind_eq_some (required_assetFree _) ?_
    rfl
  yields_ofJson? _ := yields_etched _

/-! ### Keys, pools and accounts -/

instance : Naming PoolKeys := ⟨fun _ => []⟩

instance : Naming PoolInfo := ⟨fun p => Naming.assets p.coins ++ Naming.assets p.utxos⟩

instance : Naming RegisterInfo := ⟨fun r => Naming.assets r.utxo⟩

instance : Naming Account := ⟨fun _ => []⟩

instance : Naming AccountView := ⟨fun _ => []⟩

instance : Naming RuneEntry := ⟨fun e => Naming.assets e.id⟩

instance : AssetFree PoolKeys := ⟨fun _ => rfl⟩

instance : AssetFree Account := ⟨fun _ => rfl⟩

instance : AssetFree AccountView := ⟨fun _ => rfl⟩

lemma etched_poolInfo {p : PoolInfo} : Etched p ↔ Etched p.coins ∧ Etched p.utxos :=
  List.forall_mem_append

lemma etched_registerInfo {r : RegisterInfo} : Etched r ↔ Etched r.utxo := Iff.rfl

lemma etched_runeEntry {e : RuneEntry} : Etched e ↔ Etched e.id := Iff.rfl

instance : Faithful PoolKeys where
  plain_toJson _ := .record (by simp [plain_toJson])
  ofJson?_toJson {k} _ := by
    have hfields : fields? ["untweaked", "tweaked", "derivation_path", "address"] (toJson k) =
        some [some (toJson k.untweaked), some (toJson k.tweaked), some (toJson k.path),
          some (toJson k.address)] :=
      fields?_record rfl (by decide)
    refine bind_eq_some hfields ?_
    iterate 4 refine bind_eq_some (required_assetFree _) ?_
    rfl
  yields_ofJson? _ := yields_etched _

instance : Faithful PoolInfo where
  plain_toJson _ := .record (by simp [PoolInfo.fieldNames, plain_toJson])
  ofJson?_toJson {p} h := by
    obtain ⟨hcoins, hutxos⟩ := etched_poolInfo.1 h
    have hfields : fields? PoolInfo.fieldNames (toJson p) =
        some [some (toJson p.key), some (toJson p.path), some (toJson p.name),
          some (toJson p.address), some (toJson p.nonce), some (toJson p.coins),
          some (toJson p.sats), some (toJson p.utxos), some (toJson p.attributes)] :=
      fields?_record rfl (by decide)
    refine bind_eq_some hfields ?_
    iterate 5 refine bind_eq_some (required_assetFree _) ?_
    refine bind_eq_some (required_toJson hcoins) ?_
    refine bind_eq_some (required_assetFree _) ?_
    refine bind_eq_some (required_toJson hutxos) ?_
    refine bind_eq_some (required_assetFree _) ?_
    rfl
  yields_ofJson? _ := by
    refine yields_bind fun fields => ?_
    split
    · iterate 5 refine yields_bind fun _ => ?_
      refine (yields_required _).bind fun _ hcoins => ?_
      refine yields_bind fun _ => ?_
      refine (yields_required _).bind fun _ hutxos => ?_
      refine yields_bind fun _ => ?_
      exact yields_some (etched_poolInfo.2 ⟨hcoins, hutxos⟩)
    · exact yields_none

instance : Faithful RegisterInfo where
  plain_toJson _ := .record (by simp [RegisterInfo.fieldNames, plain_toJson])
  ofJson?_toJson {r} h := by
    have hfields : fields? RegisterInfo.fieldNames (toJson r) =
        some [some (toJson r.untweaked), some (toJson r.tweaked), some (toJson r.address),
          some (toJson r.utxo), some (toJson r.registerFee), some (toJson r.nonce)] :=
      fields?_record rfl (by decide)
    refine bind_eq_some hfields ?_
    iterate 3 refine bind_eq_some (required_assetFree _) ?_
    refine bind_eq_some (required_toJson (etched_registerInfo.1 h)) ?_
    refine bind_eq_some (required_assetFree _) ?_
    refine bind_eq_some (required_assetFree _) ?_
    rfl
  yields_ofJson? _ := by
    refine yields_bind fun fields => ?_
    split
    · iterate 3 refine yields_bind fun _ => ?_
      refine (yields_required _).bind fun _ hutxo => ?_
      iterate 2 refine yields_bind fun _ => ?_
      exact yields_some (etched_registerInfo.2 hutxo)
    · exact yields_none

instance : Faithful Account where
  plain_toJson _ := .record (by simp [Account.fieldNames, plain_toJson])
  ofJson?_toJson {a} _ := by
    have hfields : fields? Account.fieldNames (toJson a) =
        some [some (toJson a.id), some (toJson a.rewards), some (toJson a.withdrawable),
          some (toJson a.lastAction), some (toJson a.registeredAt)] :=
      fields?_record rfl (by decide)
    refine bind_eq_some hfields ?_
    iterate 3 refine bind_eq_some (required_assetFree _) ?_
    refine bind_eq_some (nullable_toJson (etched_of_assetFree _)) ?_
    refine bind_eq_some (required_assetFree _) ?_
    rfl
  yields_ofJson? _ := yields_etched _

instance : NeverNull Account := ⟨fun _ => nofun⟩

instance : Faithful AccountView where
  plain_toJson _ := .record (by simp [AccountView.fieldNames, plain_toJson])
  ofJson?_toJson {v} _ := by
    have hfields : fields? AccountView.fieldNames (toJson v) =
        some [some (toJson v.claimCooldown), some (toJson v.registerFee),
          some (toJson v.maxRewards), some (toJson v.remainingRewards), some (toJson v.account)] :=
      fields?_record rfl (by decide)
    refine bind_eq_some hfields ?_
    iterate 4 refine bind_eq_some (required_assetFree _) ?_
    refine bind_eq_some (nullable_toJson (etched_of_assetFree _)) ?_
    rfl
  yields_ofJson? _ := yields_etched _

instance : Faithful RuneEntry where
  plain_toJson _ := .record (by simp [plain_toJson])
  ofJson?_toJson {e} h := by
    have hfields : fields? ["id", "spaced_rune", "divisibility", "symbol"] (toJson e) =
        some [some (toJson e.id), some (toJson e.name), some (toJson e.divisibility),
          some (toJson e.symbol)] :=
      fields?_record rfl (by decide)
    refine bind_eq_some hfields ?_
    refine bind_eq_some (required_toJson (etched_runeEntry.1 h)) ?_
    refine bind_eq_some (required_assetFree _) ?_
    refine bind_eq_some (required_assetFree _) ?_
    refine bind_eq_some (nullable_toJson (etched_of_assetFree _)) ?_
    rfl
  yields_ofJson? _ := by
    refine yields_bind fun fields => ?_
    split
    · refine (yields_required _).bind fun _ hid => ?_
      iterate 2 refine yields_bind fun _ => ?_
      refine yields_bind fun _ => ?_
      exact yields_some (etched_runeEntry.2 hid)
    · exact yields_none

/-! ### The configuration -/

instance : Naming Config := ⟨fun c => Naming.assets c.runeId⟩

lemma etched_config {c : Config} : Etched c ↔ Etched c.runeId := Iff.rfl

lemma Config.etched_default : Etched Config.default := etched_config.2 (etched_coinId.2 rfl)

instance : Faithful Config where
  plain_toJson _ := .record (by simp [Config.fieldNames, Config.fieldValues, plain_toJson])
  ofJson?_toJson {c} h := by
    have hfields : someFields? Config.fieldNames (toJson c) =
        some [some (toJson c.exchangeId), some (toJson c.poolName), some (toJson c.runeId),
          some (toJson c.depositAmount), some (toJson c.registerFee), some (toJson c.minTxValue),
          some (toJson c.queueFloorStep), some (toJson c.maxQueueDepth),
          some (toJson c.claimCooldown), some (toJson c.maxRewards), some (toJson c.maxPageSize),
          some (toJson c.indexerTimeout), some (toJson c.resolutionLogCapacity),
          some (toJson c.keySeed), some (toJson c.addressPrefix)] :=
      someFields?_record rfl (by decide)
    refine bind_eq_some hfields ?_
    refine bind_eq_some (withDefault_toJson _ (etched_of_assetFree _)) ?_
    refine bind_eq_some (withDefault_toJson _ (etched_of_assetFree _)) ?_
    refine bind_eq_some (withDefault_toJson _ (etched_config.1 h)) ?_
    iterate 12 refine bind_eq_some (withDefault_toJson _ (etched_of_assetFree _)) ?_
    rfl
  yields_ofJson? _ := by
    refine yields_bind fun fields => ?_
    split
    · iterate 2 refine yields_bind fun _ => ?_
      refine (yields_withDefault (etched_config.1 Config.etched_default) _).bind fun _ hrune => ?_
      iterate 12 refine yields_bind fun _ => ?_
      exact yields_some (etched_config.2 hrune)
    · exact yields_none

/-! ### Choices and refusals -/

section Names

variable {α : Type} [Naming α] [AssetFree α] {all : List α} {name : α → String}

/-- Names that tell the choices apart are a faithful format. -/
lemma faithful_ofNames (hall : ∀ a, a ∈ all) (hname : ∀ a b, name a = name b → a = b) :
    @Faithful α (ofNames all name) _ := by
  let _ := ofNames all name
  refine ⟨fun a => .text (name a), fun {a} _ => ?_, fun _ => yields_etched _⟩
  show (all.find? fun b => decide (name b = name a)) = some a
  cases hfind : all.find? fun b => decide (name b = name a) with
  | none => simpa using List.find?_eq_none.1 hfind a (hall a)
  | some b =>
    have hb : decide (name b = name a) = true :=
      List.find?_some (p := fun b => decide (name b = name a)) hfind
    rw [hname b a (of_decide_eq_true hb)]

end Names

instance : Naming Action := ⟨fun _ => []⟩

instance : Naming RejectionCode := ⟨fun _ => []⟩

instance : Naming Refusal := ⟨fun _ => []⟩

instance : AssetFree Action := ⟨fun _ => rfl⟩

instance : AssetFree RejectionCode := ⟨fun _ => rfl⟩

instance : AssetFree Refusal := ⟨fun _ => rfl⟩

instance : Faithful Action :=
  faithful_ofNames (by rintro ⟨⟩ <;> simp [Action.all])
    (by rintro ⟨⟩ ⟨⟩ <;> simp [Action.name])

instance : Faithful RejectionCode :=
  faithful_ofNames (by rintro ⟨⟩ <;> simp [RejectionCode.all])
    (by rintro ⟨⟩ ⟨⟩ <;> simp [RejectionCode.name])

namespace Refusal

section Readers

variable {α β : Type} [JsonFormat α] [Naming α] [Faithful α] [AssetFree α]
  [JsonFormat β] [Naming β] [Faithful β] [AssetFree β]

lemma single_toJson (refusal : α → Refusal) (a : α) :
    single refusal (some (toJson a)) = some (refusal a) := by
  rw [single, required_toJson (etched_of_assetFree a), Option.map_some]

lemma double_toJson (refusal : α → β → Refusal) (a : α) (b : β) :
    double refusal (some (.array [toJson a, toJson b])) = some (refusal a b) := by
  simp [double, ofJson?_toJson]

end Readers

/-- The reader of a cause's name reads its data. -/
lemma exists_reader (r : Refusal) :
    ∃ reader, (readers.find? fun e => decide (e.1 = r.name)) = some (r.name, reader) ∧
      reader r.payload = some r := by
  cases r <;> refine ⟨_, rfl, ?_⟩ <;>
    first
    | rfl
    | exact single_toJson _ _
    | exact double_toJson _ _ _

lemma plain_payload {r : Refusal} {payload : Json} (h : r.payload = some payload) :
    payload.Plain := by
  cases r <;> cases h <;>
    first
    | exact plain_toJson _
    | exact .array (by simp [plain_toJson])

lemma choice?_toJson (r : Refusal) : choice? (toJson r) = some (r.name, r.payload) := by
  cases h : r.payload <;> simp [toJson, h, choice?, Json.record, Json.text]

end Refusal

instance : Faithful Refusal where
  plain_toJson r := by
    simp only [toJson]
    split
    · next payload h => exact .record (by simpa using Refusal.plain_payload h)
    · exact .text r.name
  ofJson?_toJson {r} _ := by
    obtain ⟨reader, hreader, hr⟩ := r.exists_reader
    simp [ofJson?, r.choice?_toJson, hreader, hr]
  yields_ofJson? _ := yields_etched _

/-! ### The service surface -/

/-- The types whose values the service exchanges with its callers, each with its format. -/
inductive OnSurface : (α : Type) → [JsonFormat α] → [Naming α] → Prop
  | txid : OnSurface Txid
  | outPoint : OnSurface OutPoint
  | coinId : OnSurface CoinId
  | coin : OnSurface Coin
  | reserves : OnSurface Reserves
  | utxo : OnSurface Utxo
  | account : OnSurface Account
  | inputCoin : OnSurface InputCoin
  | outputCoin : OnSurface OutputCoin
  | intention : OnSurface Intention
  | intentionSet : OnSurface IntentionSet
  | action : OnSurface Action
  | executeRequest : OnSurface ExecuteRequest
  | resolveRequest : OnSurface ResolveRequest
  | floorRequest : OnSurface FloorRequest
  | poolRequest : OnSurface PoolRequest
  | pageRequest : OnSurface PageRequest
  | poolKeys : OnSurface PoolKeys
  | poolInfo : OnSurface PoolInfo
  | registerInfo : OnSurface RegisterInfo
  | rejectionCode : OnSurface RejectionCode
  | refusal : OnSurface Refusal
  | config : OnSurface Config
  | accountView : OnSurface AccountView
  | runeEntry : OnSurface RuneEntry

section Surface

variable {α : Type} [JsonFormat α] [Naming α]

lemma OnSurface.faithful (hα : OnSurface α) : Faithful α := by
  cases hα <;> infer_instance

/-- A value of the surface that names no rune of block 0 is read back from its text, and so is every
value that was read from a text, however the text was laid out. -/
theorem surface_read_back (hα : OnSurface α) :
    (∀ a : α, (∀ id ∈ Naming.assets a, id.inGenesisBlock = false) →
      (read? (write a) : Option α) = some a) ∧
    ∀ (text : String) (a : α), read? text = some a → (read? (write a) : Option α) = some a := by
  have hfaithful := hα.faithful
  constructor
  · intro a ha
    exact read?_write ha
  · intro text a hread
    exact read?_write (yields_read? text a hread)

end Surface

/-- An output to a destination whose name needs escapes. -/
def OutputCoin.sample : OutputCoin :=
  ⟨"\"é\n", ⟨.rune 840000#64 1#32, BitVec.allOnes 128⟩⟩

theorem surface_read_back_sample :
    OnSurface OutputCoin ∧
      (read? (write OutputCoin.sample) : Option OutputCoin) = some OutputCoin.sample ∧
      (read? (write (⟨"é", ⟨.native, 7#128⟩⟩ : OutputCoin)) : Option OutputCoin) =
        some ⟨"é", ⟨.native, 7#128⟩⟩ := by
  refine ⟨.outputCoin, (surface_read_back .outputCoin).1 OutputCoin.sample (by decide),
    (surface_read_back .outputCoin).2 "[ \"\\u00e9\", [\"\", 7] ]" _ ?_⟩
  decide

end RuneSettlement
