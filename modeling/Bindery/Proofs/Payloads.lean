import Bindery.Proofs.Refusals

/-!
# Payloads

A response that is ok holds a payload, in a field of its own or spread over the envelope, unless the
field is missing or null. A field of its own that is of another type makes the response unreadable,
but what is spread over the envelope counts as missing then.
-/
namespace Bindery

open Json (FieldRule Schema)

/-! Fields of one key -/

namespace Json

/-- What a record holds of a key is left by taking out another key. -/
theorem filter_key_filter {p : String × Json → Bool} {key : String} {ms : List (String × Json)}
    (h : ∀ j, p (key, j) = true) : (ms.filter p).filter (·.1 = key) = ms.filter (·.1 = key) := by
  rw [List.filter_filter]
  refine List.filter_congr fun m _ => ?_
  obtain ⟨name, j⟩ := m
  by_cases hname : name = key
  · subst hname
    simp [h j]
  · simp [hname]

namespace Schema

variable {rule : FieldRule} {s : Schema} {fields : List (FieldRule × Schema)}
  {ms : List (String × Json)}

/-- Whether a key is missing, or there once with something of the type of a schema. -/
def FitsAt (s : Schema) (ms : List (String × Json)) (key : String) : Prop :=
  ms.filter (·.1 = key) = [] ∨
    ∃ j, ms.filter (·.1 = key) = [(key, j)] ∧ ∃ v, s.ofJson j = .ok v

/-- The one member of a key has that key. -/
theorem exists_of_filter_eq {key : String} {m : String × Json}
    (h : ms.filter (·.1 = key) = [m]) : ∃ j, m = (key, j) := by
  have hmem : m ∈ ms.filter (·.1 = key) := h ▸ List.mem_singleton_self m
  have hkey : m.1 = key := by simpa using (List.mem_filter.1 hmem).2
  exact ⟨m.2, by rw [← hkey]⟩

theorem exists_ofOwn_iff (haliases : rule.aliases = []) (hneeded : rule.needed = false) :
    (∃ v, ofOwn rule s (rule.own ms) = .ok v) ↔ s.FitsAt ms rule.key := by
  obtain ⟨key, aliases, needed, omitEmpty⟩ := rule
  subst haliases hneeded
  rw [FieldRule.own_eq, FitsAt]
  have hone : ∀ m, ms.filter (·.1 = key) = [m] → ∃ j, m = (key, j) := fun _ => exists_of_filter_eq
  generalize ms.filter (·.1 = key) = own at hone
  match own with
  | [] => simp [ofOwn]
  | [m] =>
    obtain ⟨j, rfl⟩ := hone m rfl
    simp [ofOwn]
  | _ :: _ :: _ => simp [ofOwn]

/-- A record whose fields may all be missing is read exactly if each of them can be. -/
theorem exists_ofMembers_iff (hplain : ∀ f ∈ fields, f.1.aliases = [] ∧ f.1.needed = false)
    (hkeys : (fields.map (·.1.key)).Nodup) :
    (∃ row, ofMembers fields ms = .ok row) ↔ ∀ f ∈ fields, f.2.FitsAt ms f.1.key := by
  induction fields generalizing ms with
  | nil => exact iff_of_true ⟨_, ofMembers_nil ms⟩ (by simp)
  | cons f rest ih =>
    obtain ⟨rule, s⟩ := f
    obtain ⟨⟨haliases, hneeded⟩, hrest⟩ := List.forall_mem_cons.1 hplain
    obtain ⟨hkey, hkeys⟩ := List.nodup_cons.1 hkeys
    dsimp only at haliases hneeded hkey
    have hothers : ∀ f ∈ rest, f.2.FitsAt (rule.others ms) f.1.key ↔ f.2.FitsAt ms f.1.key := by
      intro f hf
      have hne : f.1.key ≠ rule.key := fun e =>
        hkey (List.mem_map.2 ⟨f, hf, e⟩)
      have hsame : (rule.others ms).filter (·.1 = f.1.key) = ms.filter (·.1 = f.1.key) :=
        filter_key_filter fun j => by simp [FieldRule.names, haliases, hne]
      rw [FitsAt, FitsAt, hsame]
    rw [List.forall_mem_cons, ← exists_ofOwn_iff haliases hneeded, ← forall₂_congr hothers,
      ← ih hrest hkeys]
    constructor
    · rintro ⟨row, hrow⟩
      obtain ⟨v, vs, rfl⟩ := row.eq_cons
      obtain ⟨hv, hvs⟩ := ofMembers_cons_eq_ok_iff.1 hrow
      exact ⟨⟨v, hv⟩, vs, hvs⟩
    · rintro ⟨⟨v, hv⟩, vs, hvs⟩
      exact ⟨.cons rule v vs, ofMembers_cons_eq_ok_iff.2 ⟨hv, hvs⟩⟩

end Schema

end Json

/-! Responses that are ok -/

/-- The members of a response that is ok, of which the envelope can be read. -/
structure Envelope.Accepts (ms : List (String × Json)) : Prop where
  ok : ms.filter (·.1 = "ok") = [("ok", .bool true)]
  error : Schema.FitsAt .text ms "error"
  warning : Schema.FitsAt (.option .text) ms "warning"

namespace Envelope

variable {ms : List (String × Json)}

/-- The members that are not the envelope's. -/
def besides (ms : List (String × Json)) : List (String × Json) :=
  ms.filter fun m => !(fields.map (·.1.key)).contains m.1

theorem Accepts.ofMembers (h : Accepts ms) :
    ∃ error warning, Schema.ofMembers fields ms = .ok (true, error, warning, ()) := by
  have hok : Schema.ofOwn okRule .flag (okRule.own ms) = .ok true := by
    rw [okRule, FieldRule.own_eq, h.ok]
    rfl
  obtain ⟨error, herror⟩ := (Schema.exists_ofOwn_iff (rfl : errorRule.aliases = []) rfl).2 h.error
  obtain ⟨warning, hwarning⟩ := (Schema.exists_ofOwn_iff (rfl : warningRule.aliases = []) rfl).2 h.warning
  have hokRule : ∀ rule ∈ [errorRule, warningRule], ∀ n ∈ rule.names, n ∉ okRule.names := by decide
  have herrorRule : ∀ n ∈ warningRule.names, n ∉ errorRule.names := by decide
  rw [← FieldRule.own_others (hokRule errorRule (by simp))] at herror
  rw [← FieldRule.own_others (hokRule warningRule (by simp)),
    ← FieldRule.own_others herrorRule] at hwarning
  refine ⟨error, warning, ?_⟩
  refine Schema.ofMembers_cons_eq_ok_iff.2 ⟨hok, ?_⟩
  refine Schema.ofMembers_cons_eq_ok_iff.2 ⟨herror, ?_⟩
  exact Schema.ofMembers_cons_eq_ok_iff.2 ⟨hwarning, Schema.ofMembers_nil _⟩

/-- Members of another key have no part in the envelope. -/
theorem Accepts.filter {name : String} (h : Accepts ms) (hname : name ∉ fields.map (·.1.key)) :
    Accepts (ms.filter (·.1 ≠ name)) := by
  have hkeep : ∀ key, key ∈ fields.map (·.1.key) →
      (ms.filter (·.1 ≠ name)).filter (·.1 = key) = ms.filter (·.1 = key) := fun key hkey =>
    Json.filter_key_filter fun j => by simpa using fun e : key = name => hname (e ▸ hkey)
  refine ⟨?_, ?_, ?_⟩
  · rw [hkeep "ok" (by decide), h.ok]
  · rw [Schema.FitsAt, hkeep "error" (by decide)]
    exact h.error
  · rw [Schema.FitsAt, hkeep "warning" (by decide)]
    exact h.warning

end Envelope

/-- The fields of a record. -/
def Json.Schema.recordFields : Schema → List (FieldRule × Schema)
  | .record _ fields => fields
  | _ => []

namespace Place

/-- The payload that the members of a response hold. -/
def Holds (s : Schema) (ms : List (String × Json)) : Place → s.Value → Prop
  | .nowhere, _ => False
  | .field name, v =>
    ∃ j, ms.filter (·.1 = name) = [(name, j)] ∧ j ≠ .null ∧ s.ofJson j = .ok v
  | .spread, v => s.ofJson (.object (Envelope.besides ms)) = .ok v

/-- Whether a response counts as one without a payload: the payload's own field is missing or null,
or a field of a payload that is spread over the envelope cannot be read. -/
def Lacks (s : Schema) (ms : List (String × Json)) : Place → Prop
  | .nowhere => False
  | .field name => ms.filter (·.1 = name) = [] ∨ ms.filter (·.1 = name) = [(name, .null)]
  | .spread => ∃ f ∈ s.recordFields, ¬ f.2.FitsAt ms f.1.key

end Place

/-- Whether a payload can be spread over an envelope: it is a record whose fields may all be missing,
and none of them is the envelope's. -/
def Json.Schema.isSpreadable (s : Schema) : Bool :=
  match s with
  | .record _ fields => (fields.map (·.1.key)).Nodup &&
      fields.all fun f => f.1.aliases.isEmpty && !f.1.needed &&
        !(Envelope.fields.map (·.1.key)).contains f.1.key
  | _ => false

namespace Response

variable {s : Schema} {ms : List (String × Json)}

theorem spreadPayload_eq (name : String) (fields : List (FieldRule × Schema))
    (ms : List (String × Json)) : spreadPayload (.record name fields) ms =
      ((Schema.record name fields).ofJson (.object (Envelope.besides ms))).toOption := rfl

/-- A payload that is spread over the envelope lacks what cannot be read. -/
theorem exists_holds_spread_iff (hs : s.isSpreadable = true) :
    (∃ v, Place.Holds s ms .spread v) ↔ ¬ Place.Lacks s ms .spread := by
  unfold Schema.isSpreadable at hs
  split at hs
  · rename_i name fields
    rw [Bool.and_eq_true, decide_eq_true_eq, List.all_eq_true] at hs
    obtain ⟨hkeys, hfields⟩ := hs
    have hplain : ∀ f ∈ fields, f.1.aliases = [] ∧ f.1.needed = false := fun f hf => by
      have hf := hfields f hf
      simp only [Bool.and_eq_true, List.isEmpty_iff, Bool.not_eq_true'] at hf
      exact hf.1
    have hsame : ∀ f ∈ fields, f.2.FitsAt (Envelope.besides ms) f.1.key ↔
        f.2.FitsAt ms f.1.key := fun f hf => by
      have hf := hfields f hf
      rw [Bool.and_eq_true] at hf
      rw [Schema.FitsAt, Schema.FitsAt, Envelope.besides, Json.filter_key_filter fun _ => hf.2]
    have hread := (Schema.exists_ofMembers_iff hplain hkeys).trans (forall₂_congr hsame)
    exact hread.trans (by simp [Place.Lacks, Schema.recordFields])
  · cases hs

/-- The slot of the payload's own field, once it is read. -/
theorem join_eq_some_iff {name : String} {slot : Option (Option s.Value)}
    (h : Schema.fillSlot ⟨name, [], false, false⟩ (.option s) none (ms.filter (·.1 = name)) =
      .ok slot) (v : s.Value) : slot.join = some v ↔ Place.Holds s ms (.field name) v := by
  change slot.join = some v ↔
    ∃ j, ms.filter (·.1 = name) = [(name, j)] ∧ j ≠ .null ∧ s.ofJson j = .ok v
  have hone : ∀ m, ms.filter (·.1 = name) = [m] → ∃ j, m = (name, j) := fun _ =>
    Schema.exists_of_filter_eq
  generalize ms.filter (·.1 = name) = own at h hone
  match own with
  | [] =>
    obtain rfl := Except.ok.inj h
    exact iff_of_false (fun h => nomatch h) (by simp)
  | [m] =>
    obtain ⟨j, rfl⟩ := hone m rfl
    obtain ⟨w, hw, hslot⟩ := Schema.fillSlot_none_cons.1 h
    obtain rfl := Except.ok.inj hslot
    by_cases hj : j = .null
    · subst hj
      obtain rfl := Except.ok.inj hw
      exact iff_of_false (fun h => nomatch h) (by simp)
    · rw [Schema.ofJson_option hj] at hw
      cases hv : s.ofJson j with
      | error why =>
        rw [hv] at hw
        cases hw
      | ok v' =>
        rw [hv] at hw
        obtain rfl := Except.ok.inj hw
        refine (Option.some_inj : some v' = some v ↔ v' = v).trans ?_
        simp [hj, hv]
  | _ :: _ :: _ => cases h

/-- A response that is ok is read if the payload's own field can be. -/
theorem ofObject_accepts {place : Place} (h : Envelope.Accepts ms)
    (hown : ∀ name, place = .field name → name ∉ Envelope.fields.map (·.1.key))
    (hspread : place = .spread → s.isSpreadable = true) (hplace : place ≠ .nowhere)
    (hread : place.Readable s ms) : ∃ e payload, ofObject s place ms = .ok ⟨e, payload⟩ ∧
      e.ok = true ∧ ∀ v, payload = some v ↔ place.Holds s ms v := by
  cases place with
  | nowhere => exact absurd rfl hplace
  | field name =>
    obtain ⟨r, hr⟩ := exists_putAll_iff.2 hread
    obtain ⟨hslot, hothers⟩ := putAll_eq_ok_iff.1 hr
    obtain ⟨error, warning, hrow⟩ := (h.filter (hown name rfl)).ofMembers
    refine ⟨⟨true, error, warning⟩, r.named.join, ?_, rfl, join_eq_some_iff hslot⟩
    change (Json.putAll (put s (some name)) {} ms >>= ofMembers s (.field name)) = _
    rw [hr]
    change ofMembers s (.field name) r = _
    rw [ofMembers, show r.others = ms.filter (·.1 ≠ name) from hothers, hrow]
    rfl
  | spread =>
    obtain ⟨error, warning, hrow⟩ := h.ofMembers
    refine ⟨⟨true, error, warning⟩, spreadPayload s ms, ?_, rfl, fun v => ?_⟩
    · change (Json.putAll (put s none) {} ms >>= ofMembers s .spread) = _
      rw [putAll_none]
      change ofMembers s .spread ⟨none, ms⟩ = _
      rw [ofMembers, hrow]
      rfl
    · have hs := hspread rfl
      unfold Schema.isSpreadable at hs
      split at hs
      · rw [spreadPayload_eq]
        refine ⟨eq_ok_of_toOption, fun hv => ?_⟩
        rw [show _ = Except.ok v from hv]
        rfl
      · cases hs

end Response

/-! Calls -/

/-- Either a response holds a payload, or it lacks one, or it cannot be read. -/
theorem Place.cases {s : Schema} (ms : List (String × Json)) {place : Place}
    (hplace : place ≠ .nowhere) (hspread : place = .spread → s.isSpreadable = true) :
    (place.Readable s ms ∧ ¬ place.Lacks s ms ∧ ∃ v, place.Holds s ms v) ∨
      (place.Readable s ms ∧ place.Lacks s ms ∧ ∀ v, ¬ place.Holds s ms v) ∨
      (¬ place.Readable s ms ∧ ¬ place.Lacks s ms ∧ ∀ v, ¬ place.Holds s ms v) := by
  cases place with
  | nowhere => exact absurd rfl hplace
  | spread =>
    have hiff : (∃ v, Place.Holds s ms .spread v) ↔ ¬ Place.Lacks s ms .spread :=
      Response.exists_holds_spread_iff (hspread rfl)
    by_cases hlacks : Place.Lacks s ms .spread
    · exact .inr (.inl ⟨trivial, hlacks, not_exists.1 fun hholds => hiff.1 hholds hlacks⟩)
    · exact .inl ⟨trivial, hlacks, hiff.2 hlacks⟩
  | field name =>
    have hnull : ∀ j, ms.filter (·.1 = name) = [(name, j)] → ∀ v, Place.Holds s ms (.field name) v →
        j ≠ .null ∧ s.ofJson j = .ok v := by
      rintro j hj v ⟨j', hj', hne, hv⟩
      obtain rfl : j' = j := congrArg Prod.snd (List.singleton_inj.1 (hj'.symm.trans hj))
      exact ⟨hne, hv⟩
    by_cases hread : Place.Readable s ms (.field name)
    · rcases hread with hnone | ⟨j, hone, rfl | ⟨v, hv⟩⟩
      · refine .inr (.inl ⟨.inl hnone, .inl hnone, ?_⟩)
        rintro v ⟨j, hj, -⟩
        rw [hnone] at hj
        cases hj
      · refine .inr (.inl ⟨.inr ⟨.null, hone, .inl rfl⟩, .inr hone, fun v hv => ?_⟩)
        exact (hnull .null hone v hv).1 rfl
      · by_cases hj : j = .null
        · subst hj
          refine .inr (.inl ⟨.inr ⟨.null, hone, .inl rfl⟩, .inr hone, fun v hv => ?_⟩)
          exact (hnull .null hone v hv).1 rfl
        · refine .inl ⟨.inr ⟨j, hone, .inr ⟨v, hv⟩⟩, ?_, v, j, hone, hj, hv⟩
          rintro (hnone | hnull')
          · rw [hnone] at hone
            cases hone
          · exact hj (congrArg Prod.snd (List.singleton_inj.1 (hone.symm.trans hnull')))
    · refine .inr (.inr ⟨hread, ?_, ?_⟩)
      · rintro (hnone | hone)
        · exact hread (.inl hnone)
        · exact hread (.inr ⟨.null, hone, .inl rfl⟩)
      · rintro v ⟨j, hone, -, hv⟩
        exact hread (.inr ⟨j, hone, .inr ⟨v, hv⟩⟩)

section

variable {s : Schema} {ms : List (String × Json)} {e : Endpoint} {text : List Text.Piece}

/-- An ok response that can be read gives the payload that it holds. -/
theorem Endpoint.outcome_of_readable (hdoc : Json.parse text = .ok (.object ms))
    (hok : Envelope.Accepts ms)
    (hown : ∀ name, e.place = .field name → name ∉ Envelope.fields.map (·.1.key))
    (hspread : e.place = .spread → s.isSpreadable = true) (hplace : e.place ≠ .nowhere)
    (hread : e.place.Readable s ms) :
    (∀ v, e.place.Holds s ms v →
      e.outcome (((Response.reader s e.place).run? text).mapError .reply) = .ok (some v)) ∧
    ((∀ v, ¬ e.place.Holds s ms v) →
      e.outcome (((Response.reader s e.place).run? text).mapError .reply) =
        .error (.missingPayload e.name e.payloadName)) := by
  obtain ⟨envelope, payload, hobject, heok, hholds⟩ :=
    Response.ofObject_accepts hok hown hspread hplace hread
  rw [(Response.run?_reader_eq_ok_iff hdoc).2 hobject]
  change (∀ v, _ → e.payload ⟨envelope, payload⟩ = _) ∧ (_ → e.payload ⟨envelope, payload⟩ = _)
  rw [Endpoint.payload, heok]
  simp only [Bool.not_true, Bool.false_eq_true, if_false, if_neg hplace]
  refine ⟨fun v hv => ?_, fun hnone => ?_⟩
  · rw [(hholds v).2 hv]
  · cases payload with
    | none => rfl
    | some v => exact absurd ((hholds v).1 rfl) (hnone v)

/-- A response with a payload's own field that cannot be read counts as unreadable. -/
theorem Endpoint.outcome_of_unreadable (hdoc : Json.parse text = .ok (.object ms))
    (hread : ¬ e.place.Readable s ms) : ∃ fault,
      e.outcome (((Response.reader s e.place).run? text).mapError .reply) =
        .error (.post e.name (.reply fault)) := by
  obtain ⟨m, hobject⟩ := Response.ofObject_unreadable hread
  cases hrun : (Response.reader s e.place).run? text with
  | ok r =>
    rw [(Response.run?_reader_eq_ok_iff hdoc).1 hrun] at hobject
    cases hobject
  | error fault => exact ⟨fault, rfl⟩

end

namespace Slack

/-- The payloads of the catalog that are spread over the envelope can be. -/
theorem isSpreadable_of_catalog {e : Endpoint} (he : e ∈ catalog.endpoints)
    (hplace : e.place = .spread) : (schemaOf e.returnType).isSpreadable = true := by
  have hall : ∀ e ∈ catalog.endpoints, e.place = .spread →
      (schemaOf e.returnType).isSpreadable = true := by decide +kernel
  exact hall e he hplace

variable {c : Client} {call : Call} {f : Form} {r : Post.Request} {status : Nat}
  {bytes : List UInt8} {ms : List (String × Json)} {peer : Post.Request → List (Poll Post.Reply)}

theorem place_ne_nowhere {e : Endpoint} (h : e.hasReturn = true) : e.place ≠ .nowhere := by
  rw [Endpoint.place, if_neg (by simp [h])]
  split <;> simp

/-- A call whose request is answered ends with what its endpoint makes of the response that is read
from the answer. -/
theorem execute_answer (hform : c.form call = .ok f)
    (hrequest : c.http.request call.endpoint.name f = .ok r) (hreach : Post.canReach r.url = true)
    (hreply : race? (peer r) = some (.ok (.answer status (some bytes))))
    (hstatus : Post.isSuccess status = true) :
    (c.execute call false peer).result = some (call.endpoint.outcome
      (((Response.reader (Client.payloadSchema call) call.endpoint.place).run?
        (Text.piecesOfBytes bytes)).mapError .reply)) := by
  refine (Call.execute_result hform hrequest hreach hreply).trans ?_
  rw [Post.Reply.take, if_pos hstatus]

/-- A call with a payload that is answered by an ok response ends with the payload that the response
holds. It ends as one whose payload is missing exactly if the payload's own field is missing or
null, or if a field of a payload that is spread over the envelope cannot be read. If the payload's
own field cannot be read, the whole response counts as unreadable. -/
theorem payload_reported_iff (hcall : call.endpoint ∈ catalog.endpoints)
    (hreturn : call.endpoint.hasReturn = true) (hform : c.form call = .ok f)
    (hrequest : c.http.request call.endpoint.name f = .ok r) (hreach : Post.canReach r.url = true)
    (hreply : race? (peer r) = some (.ok (.answer status (some bytes))))
    (hstatus : Post.isSuccess status = true)
    (hdoc : Json.parse (Text.piecesOfBytes bytes) = .ok (.object ms))
    (hok : Envelope.Accepts ms) :
    (∀ v, (c.execute call false peer).result = some (.ok (some v)) ↔
      call.endpoint.place.Holds (Client.payloadSchema call) ms v) ∧
    ((c.execute call false peer).result =
        some (.error (.missingPayload call.endpoint.name call.endpoint.payloadName)) ↔
      call.endpoint.place.Lacks (Client.payloadSchema call) ms) ∧
    ((∃ fault, (c.execute call false peer).result =
        some (.error (.post call.endpoint.name (.reply fault)))) ↔
      ¬ call.endpoint.place.Readable (Client.payloadSchema call) ms) := by
  have hplace := place_ne_nowhere hreturn
  have hspread : call.endpoint.place = .spread →
      (Client.payloadSchema call).isSpreadable = true := isSpreadable_of_catalog hcall
  have hown : ∀ name, call.endpoint.place = .field name → name ∉ Envelope.fields.map (·.1.key) :=
    fun _ => place_not_envelope hcall
  rw [execute_answer hform hrequest hreach hreply hstatus]
  simp only [Option.some.injEq]
  rcases Place.cases ms hplace hspread with
    ⟨hread, hpresent, v, hv⟩ | ⟨hread, hlacks, hnone⟩ | ⟨hunread, hholds, hnone⟩
  · have hended := (Endpoint.outcome_of_readable hdoc hok hown hspread hplace hread).1
    rw [hended v hv]
    refine ⟨fun w => ⟨fun h => ?_, fun hw => ?_⟩, ?_, ?_⟩
    · cases h
      exact hv
    · rw [← hended w hw, hended v hv]
    · exact iff_of_false (by simp) hpresent
    · exact iff_of_false (by simp) (not_not.2 hread)
  · have hended := (Endpoint.outcome_of_readable hdoc hok hown hspread hplace hread).2 hnone
    rw [hended]
    exact ⟨fun w => iff_of_false (by simp) (hnone w), iff_of_true rfl hlacks,
      iff_of_false (by simp) (not_not.2 hread)⟩
  · obtain ⟨fault, hended⟩ := Endpoint.outcome_of_unreadable (e := call.endpoint) hdoc hunread
    rw [hended]
    exact ⟨fun w => iff_of_false (by simp) (hnone w), iff_of_false (by simp) hholds,
      iff_of_true ⟨fault, rfl⟩ hunread⟩

/-- The call that tests a token. -/
def testCall : Call where
  endpoint := { name := "auth.test", returnType := "crate::objects::AuthTestResponse" }
  held := []

/-- The text `{"ok":true,"url":5}`. -/
def misfitBytes : List UInt8 := [
    123, 34, 111, 107, 34, 58, 116, 114, 117, 101, 44, 34, 117, 114, 108, 34, 58, 53, 125]

/-- A number in the place of a text makes the payload a missing one. -/
theorem misfit_missing :
    (ownClient.execute testCall false
      fun _ => [{ result := some (.ok (.answer 200 (some misfitBytes))) }]).result =
        some (.error (.missingPayload "auth.test" "crate::objects::AuthTestResponse")) := by
  have hform : ownClient.form testCall = .ok (.ofPairs [("token", "t")]) :=
    eq_ok_of_toOption (by decide +kernel)
  have hrequest : ownClient.http.request "auth.test" (.ofPairs [("token", "t")]) =
      .ok ⟨⟨"http", some { host := .name "slack" }, .segments ["auth.test"], none, none⟩,
        "token=t", none⟩ :=
    eq_ok_of_toOption (by decide +kernel)
  have hdoc : Json.parse (Text.piecesOfBytes misfitBytes) =
      .ok (.object [("ok", .bool true), ("url", .integer 5)]) := rfl
  have hok : Envelope.Accepts [("ok", .bool true), ("url", .integer 5)] :=
    ⟨rfl, .inl rfl, .inl rfl⟩
  have hlacks : testCall.endpoint.place.Lacks (Client.payloadSchema testCall)
      [("ok", .bool true), ("url", .integer 5)] := by
    refine ⟨kept "url" .text, .head _, ?_⟩
    rintro (hnone | ⟨j, hone, v, hv⟩)
    · cases hnone
    · obtain rfl : Json.integer 5 = j := congrArg Prod.snd (List.singleton_inj.1 hone)
      cases hv
  exact (payload_reported_iff (by decide) rfl hform hrequest rfl rfl rfl hdoc hok).2.1.2 hlacks

end Slack

end Bindery
