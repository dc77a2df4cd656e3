import Bindery.Proofs.Json.Agreement
import Bindery.Slack.Client

/-!
# Refusals

A service refuses a call by a response that is not ok and says why. The refusal is reported as
such unless the payload's own field is in the response and cannot be read.
-/
namespace Bindery

open Json (FieldRule Schema Reads)

/-! Responses -/

namespace Response

variable {s : Schema} {ms : List (String × Json)}

/-- What reading a response does with a member. -/
def put (s : Schema) (field? : Option String) (key : String) (j : Json) (r : Members s) :
    Except Json.Mismatch (Members s) :=
  if field? = some key then
    match r.named with
    | some _ => .error (.duplicateField key)
    | none => ((Schema.option s).ofJson j).map fun v => { r with named := some v }
  else .ok { r with others := r.others ++ [(key, j)] }

theorem member_agrees (s : Schema) (field? : Option String) :
    Json.MemberAgrees (member s field?) innerDepth (put s field?) := by
  intro key r
  unfold member put
  by_cases hkey : field? = some key
  · simp only [if_pos hkey]
    cases hnamed : r.named with
    | some v =>
      intro j r' h
      cases h
    | none =>
      exact (Json.optional_agrees (s.read_agrees innerDepth)).map
        fun v => { r with named := some v }
  · simp only [if_neg hkey]
    exact (Json.value_agrees innerDepth).map fun j => { r with others := r.others ++ [(key, j)] }

/-- The field that holds the payload, if it has one of its own. -/
def ownField? : Place → Option String
  | .field name => some name
  | _ => none

theorem reads_objectReader {place : Place} {text rest rest' : List Text.Piece}
    (h : Reads (Json.value Json.maxDepth) text (.object ms) rest) (r : Response s.Value) :
    Reads (objectReader s place) text r rest' ↔
      (Json.putAll (put s (ownField? place)) {} ms >>= ofMembers s place) = .ok r ∧
        rest' = rest := by
  rw [Json.value_eq, Json.reads_valueWith] at h
  obtain ⟨item, mid, hitem, hc, hms, hclose⟩ : ∃ item mid, Json.inner? Json.maxDepth = some item ∧
      Json.front (Json.past text) = some '\x7b' ∧
        Reads (Json.members item) (Json.past text).tail ms mid ∧
          Reads Json.closeObject mid () rest := by
    rcases h with ⟨_, _, _, -, -, hj, -⟩ | ⟨item, ms', mid, hitem, hc, hj, hms, hclose⟩ |
      ⟨c, -, -, -, hj⟩
    · cases hj
    · cases hj
      exact ⟨item, mid, hitem, hc, hms, hclose⟩
    · exact hj.scalar_form.1.elim
  obtain rfl : Json.value innerDepth = item := Option.some.inj hitem
  unfold objectReader
  dsimp only
  rw [Json.reads_past_bind, hc]
  exact Json.readObject_agrees (member_agrees s (ownField? place)) hms hclose r

/-- The response that the members of an object hold. -/
def ofObject (s : Schema) (place : Place) (ms : List (String × Json)) :
    Except Json.Mismatch (Response s.Value) :=
  match place with
  | .nowhere => (Schema.ofMembers Envelope.fields ms).map fun row => ⟨Envelope.ofRow row, none⟩
  | place => Json.putAll (put s (ownField? place)) {} ms >>= ofMembers s place

/-- Where a text holds an object, its response is read from the members of the object. -/
theorem run?_reader_eq_ok_iff {text : List Text.Piece} {place : Place}
    (h : Json.parse text = .ok (.object ms)) {r : Response s.Value} :
    (reader s place).run? text = .ok r ↔ ofObject s place ms = .ok r := by
  have hobject : ∀ place, (objectReader s place).run? text = .ok r ↔
      (Json.putAll (put s (ownField? place)) {} ms >>= ofMembers s place) = .ok r := by
    intro place
    obtain ⟨rest, hread, hend⟩ := Json.run?_eq_ok_iff.1 h
    rw [Json.run?_eq_ok_iff]
    constructor
    · rintro ⟨rest', hr, -⟩
      exact ((reads_objectReader hread r).1 hr).1
    · exact fun hr => ⟨rest, (reads_objectReader hread r).2 ⟨hr, rfl⟩, hend⟩
  cases place with
  | nowhere =>
    have hagrees := ((Envelope.schema.read_agrees Json.maxDepth).map Envelope.ofRow).map
      fun e => (⟨e, none⟩ : Response s.Value)
    refine (hagrees.run?_eq_ok_iff h).trans ?_
    change (((Schema.ofMembers Envelope.fields ms).map _).map _) = _ ↔ _
    rw [ofObject]
    cases Schema.ofMembers Envelope.fields ms with
    | error m => exact Iff.rfl
    | ok row => exact Iff.rfl
  | field name => exact hobject (.field name)
  | spread => exact hobject .spread

/-- The payload's own field is a slot, and all other members are kept. -/
theorem putAll_eq_ok_iff {name : String} {r r' : Members s} :
    Json.putAll (put s (some name)) r ms = .ok r' ↔
      Schema.fillSlot ⟨name, [], false, false⟩ (.option s) r.named (ms.filter (·.1 = name)) =
          .ok r'.named ∧
        r'.others = r.others ++ ms.filter (·.1 ≠ name) := by
  induction ms generalizing r with
  | nil =>
    obtain ⟨named, others⟩ := r
    obtain ⟨named', others'⟩ := r'
    change Except.ok _ = .ok _ ↔ Except.ok named = .ok named' ∧ others' = others ++ []
    simp only [Except.ok.injEq, Members.mk.injEq, List.append_nil]
    exact and_congr_right fun _ => eq_comm
  | cons m ms ih =>
    rw [Json.putAll_cons, bind_eq_ok_iff, put]
    by_cases hkey : m.1 = name
    · rw [if_pos (by rw [hkey]), List.filter_cons_of_pos (by simpa using hkey),
        List.filter_cons_of_neg (by simpa using hkey)]
      cases hnamed : r.named with
      | some v => simp [Schema.fillSlot]
      | none =>
        refine Iff.trans ?_ (and_congr_left' Schema.fillSlot_none_cons.symm)
        constructor
        · rintro ⟨t, ht, hrest⟩
          cases hv : (Schema.option s).ofJson m.2 with
          | error why =>
            rw [hv] at ht
            cases ht
          | ok v =>
            rw [hv] at ht
            obtain rfl := Except.ok.inj ht
            obtain ⟨hslot, hothers⟩ := ih.1 hrest
            exact ⟨⟨v, rfl, hslot⟩, hothers⟩
        · rintro ⟨⟨v, hv, hslot⟩, hothers⟩
          refine ⟨{ r with named := some v }, ?_, ih.2 ⟨hslot, hothers⟩⟩
          rw [hv]
          rfl
    · rw [if_neg (by simpa using fun h => hkey h.symm),
        List.filter_cons_of_neg (by simpa using hkey),
        List.filter_cons_of_pos (by simpa using hkey)]
      simp only [Except.ok.injEq, exists_eq_left', ih, List.append_assoc, List.singleton_append]

/-- Of a response without a field for the payload all members are kept. -/
theorem putAll_none {r : Members s} :
    Json.putAll (put s none) r ms = .ok { r with others := r.others ++ ms } := by
  induction ms generalizing r with
  | nil => simp [Json.putAll, pure, Except.pure]
  | cons m ms ih =>
    rw [Json.putAll_cons]
    refine ih.trans ?_
    simp

end Response

/-! Refusals -/

/-- The members of a response that refuses a call and says why. Nothing is said of the others. -/
structure Envelope.Refuses (ms : List (String × Json)) (why : String) : Prop where
  ok : ms.filter (·.1 = "ok") = [("ok", .bool false)]
  error : ms.filter (·.1 = "error") = [("error", .string why)]
  warning : ms.filter (·.1 = "warning") = [] ∨
    ∃ j, ms.filter (·.1 = "warning") = [("warning", j)] ∧ (j = .null ∨ ∃ w, j = .string w)

/-- Whether the payload's own field is missing, null or holds a payload. -/
def Place.Readable (s : Schema) (ms : List (String × Json)) : Place → Prop
  | .field name => ms.filter (·.1 = name) = [] ∨
      ∃ j, ms.filter (·.1 = name) = [(name, j)] ∧ (j = .null ∨ ∃ v, s.ofJson j = .ok v)
  | _ => True

namespace Envelope

variable {ms : List (String × Json)} {why : String}

def okRule : FieldRule := ⟨"ok", [], true, false⟩

def errorRule : FieldRule := ⟨"error", [], false, false⟩

def warningRule : FieldRule := ⟨"warning", [], false, false⟩

theorem Refuses.ofMembers (h : Refuses ms why) :
    ∃ warning, Schema.ofMembers fields ms = .ok (false, why, warning, ()) := by
  have hok : Schema.ofOwn okRule .flag (okRule.own ms) = .ok false := by
    rw [okRule, FieldRule.own_eq, h.ok]
    rfl
  have herror : Schema.ofOwn errorRule .text (errorRule.own (okRule.others ms)) = .ok why := by
    rw [FieldRule.own_others (by decide), errorRule, FieldRule.own_eq, h.error]
    rfl
  obtain ⟨warning, hwarning⟩ : ∃ warning, Schema.ofOwn warningRule (.option .text)
      (warningRule.own (errorRule.others (okRule.others ms))) = .ok warning := by
    rw [FieldRule.own_others (by decide), FieldRule.own_others (by decide), warningRule,
      FieldRule.own_eq]
    rcases h.warning with hnone | ⟨j, hone, rfl | ⟨w, rfl⟩⟩
    · rw [hnone]
      exact ⟨_, rfl⟩
    · rw [hone]
      exact ⟨_, rfl⟩
    · rw [hone]
      exact ⟨_, rfl⟩
  refine ⟨warning, ?_⟩
  refine Schema.ofMembers_cons_eq_ok_iff.2 ⟨hok, ?_⟩
  refine Schema.ofMembers_cons_eq_ok_iff.2 ⟨herror, ?_⟩
  exact Schema.ofMembers_cons_eq_ok_iff.2 ⟨hwarning, Schema.ofMembers_nil _⟩

/-- Members of another key have no part in a refusal. -/
theorem Refuses.filter {name : String} (h : Refuses ms why)
    (hname : name ∉ fields.map (·.1.key)) : Refuses (ms.filter (·.1 ≠ name)) why := by
  have hkeep : ∀ key, key ∈ fields.map (·.1.key) →
      (ms.filter (·.1 ≠ name)).filter (·.1 = key) = ms.filter (·.1 = key) := by
    intro key hkey
    rw [List.filter_filter]
    refine List.filter_congr fun m _ => ?_
    by_cases hm : m.1 = key
    · have hne : key ≠ name := fun e => hname (e ▸ hkey)
      simp [hm, hne]
    · simp [hm]
  refine ⟨?_, ?_, ?_⟩
  · rw [hkeep "ok" (by decide), h.ok]
  · rw [hkeep "error" (by decide), h.error]
  · rw [hkeep "warning" (by decide)]
    exact h.warning

end Envelope

namespace Response

variable {s : Schema} {place : Place} {ms : List (String × Json)} {why : String}

theorem exists_option_ofJson_iff {j : Json} : (∃ v, (Schema.option s).ofJson j = .ok v) ↔
    j = .null ∨ ∃ v, s.ofJson j = .ok v := by
  by_cases hj : j = .null
  · subst hj
    exact iff_of_true ⟨_, rfl⟩ (.inl rfl)
  · rw [Schema.ofJson_option hj]
    simp only [hj, false_or]
    cases s.ofJson j with
    | error m => exact iff_of_false (fun ⟨_, h⟩ => nomatch h) fun ⟨_, h⟩ => nomatch h
    | ok v => exact ⟨fun _ => ⟨v, rfl⟩, fun _ => ⟨_, rfl⟩⟩

/-- The payload's own field decides alone whether the members can be taken apart. -/
theorem exists_putAll_iff {name : String} :
    (∃ r, Json.putAll (put s (some name)) {} ms = .ok r) ↔ (Place.field name).Readable s ms := by
  have hone : ∀ m, ms.filter (·.1 = name) = [m] → m.1 = name := by
    intro m hm
    have hmem : m ∈ ms.filter (·.1 = name) := hm ▸ List.mem_singleton_self m
    simpa using (List.mem_filter.1 hmem).2
  have hslot : (∃ r, Json.putAll (put s (some name)) {} ms = .ok r) ↔
      ∃ slot, Schema.fillSlot ⟨name, [], false, false⟩ (.option s) none
        (ms.filter (·.1 = name)) = .ok slot := by
    constructor
    · rintro ⟨r, hr⟩
      exact ⟨r.named, (putAll_eq_ok_iff.1 hr).1⟩
    · rintro ⟨slot, hslot⟩
      exact ⟨⟨slot, ms.filter (·.1 ≠ name)⟩, putAll_eq_ok_iff.2 ⟨hslot, rfl⟩⟩
  rw [hslot, Schema.exists_fillSlot_iff]
  simp only [exists_option_ofJson_iff]
  refine or_congr_right ?_
  constructor
  · rintro ⟨⟨key, j⟩, hm, hj⟩
    obtain rfl : key = name := hone _ hm
    exact ⟨j, hm, hj⟩
  · rintro ⟨j, hm, hj⟩
    exact ⟨(name, j), hm, hj⟩

theorem ofMembers_eq (place : Place) {r : Members s} {row : Schema.Value Envelope.schema}
    (h : Schema.ofMembers Envelope.fields r.others = .ok row) :
    ∃ payload, ofMembers s place r = .ok ⟨Envelope.ofRow row, payload⟩ := by
  unfold ofMembers
  rw [h]
  exact ⟨_, rfl⟩

/-- A refusal is read as one, unless the payload's own field cannot be read. -/
theorem ofObject_refuses (h : Envelope.Refuses ms why)
    (hplace : ∀ name, place = .field name → name ∉ Envelope.fields.map (·.1.key))
    (hread : place.Readable s ms) :
    ∃ warning payload, ofObject s place ms = .ok ⟨⟨false, why, warning⟩, payload⟩ := by
  cases place with
  | nowhere =>
    obtain ⟨warning, hrow⟩ := h.ofMembers
    refine ⟨warning, none, ?_⟩
    rw [ofObject, hrow]
    rfl
  | spread =>
    obtain ⟨warning, hrow⟩ := h.ofMembers
    refine ⟨warning, ?_⟩
    obtain ⟨payload, hpayload⟩ := ofMembers_eq (s := s) .spread
      (r := ⟨none, [] ++ ms⟩) hrow
    refine ⟨payload, Eq.trans ?_ hpayload⟩
    change (Json.putAll (put s none) {} ms >>= ofMembers s .spread) = _
    rw [putAll_none]
    rfl
  | field name =>
    obtain ⟨r, hr⟩ := exists_putAll_iff.2 hread
    obtain ⟨warning, hrow⟩ := (h.filter (hplace name rfl)).ofMembers
    have hothers : r.others = ms.filter (·.1 ≠ name) := (putAll_eq_ok_iff.1 hr).2
    obtain ⟨payload, hpayload⟩ := ofMembers_eq (.field name) (hothers ▸ hrow)
    refine ⟨warning, payload, Eq.trans ?_ hpayload⟩
    change (Json.putAll (put s (some name)) {} ms >>= ofMembers s (.field name)) = _
    rw [hr]
    rfl

theorem ofObject_unreadable (hread : ¬ place.Readable s ms) :
    ∃ m, ofObject s place ms = .error m := by
  cases place with
  | nowhere => exact absurd trivial hread
  | spread => exact absurd trivial hread
  | field name =>
    rw [← exists_putAll_iff] at hread
    change ∃ m, (Json.putAll (put s (some name)) {} ms >>= ofMembers s (.field name)) = .error m
    cases hput : Json.putAll (put s (some name)) {} ms with
    | error m => exact ⟨m, rfl⟩
    | ok r => exact absurd ⟨r, hput⟩ hread

end Response

/-! Calls -/

/-- The race for a request that can be made ends as the race with the peer does. -/
theorem Post.Request.race_polls {α : Type} {r : Post.Request} (hreach : Post.canReach r.url = true)
    (reader : Json.Reader α) (polls : List (Poll Post.Reply)) :
    race? (r.polls reader polls) = (race? polls).map (·.bind (Post.Reply.take reader)) := by
  unfold race? Post.Request.polls
  induction polls with
  | nil => rfl
  | cons p polls ih =>
    rw [List.map_cons, List.findSome?_cons, List.findSome?_cons, ih]
    unfold Poll.outcome?
    rw [if_pos hreach]
    cases p.cancelled with
    | true => rfl
    | false =>
      cases p.expired with
      | true => rfl
      | false => cases p.result <;> rfl

/-- A call whose request is answered ends with what its endpoint makes of the answer. -/
theorem Call.execute_result {call : Call} {client : Post.Client} {tokenKey token : String}
    {s : Schema} {peer : Post.Request → List (Poll Post.Reply)} {f : Form} {r : Post.Request}
    {reply : Post.Reply} (hform : call.form tokenKey token = .ok f)
    (hrequest : client.request call.endpoint.name f = .ok r)
    (hreach : Post.canReach r.url = true) (hreply : race? (peer r) = some (.ok reply)) :
    (call.execute client tokenKey token s false peer).result =
      some (call.endpoint.outcome (reply.take (Response.reader s call.endpoint.place))) := by
  unfold Call.execute Post.Client.post
  rw [hform]
  dsimp only
  rw [hrequest]
  simp only [Post.Request.race_polls hreach, hreply]
  rfl

namespace Slack

/-- No payload of the catalog is where the envelope's own members are. -/
theorem place_not_envelope {e : Endpoint} (he : e ∈ catalog.endpoints) {name : String}
    (hplace : e.place = .field name) : name ∉ Envelope.fields.map (·.1.key) := by
  have hall : ∀ e ∈ catalog.endpoints, ∀ name ∈ Response.ownField? e.place,
      name ∉ Envelope.fields.map (·.1.key) := by
    decide
  exact hall e he name (by rw [hplace]; rfl)

variable {c : Client} {call : Call} {f : Form} {r : Post.Request} {status : Nat}
  {bytes : List UInt8} {ms : List (String × Json)} {why : String}
  {peer : Post.Request → List (Poll Post.Reply)}

/-- A call that is refused ends with the refusal exactly if the payload's own field, where it has
one, is missing, null or holds a payload. Otherwise the whole response counts as unreadable. -/
theorem refusal_reported_iff (hcall : call.endpoint ∈ catalog.endpoints)
    (hform : c.form call = .ok f) (hrequest : c.http.request call.endpoint.name f = .ok r)
    (hreach : Post.canReach r.url = true)
    (hreply : race? (peer r) = some (.ok (.answer status (some bytes))))
    (hstatus : Post.isSuccess status = true)
    (hdoc : Json.parse (Text.piecesOfBytes bytes) = .ok (.object ms))
    (hwhy : Envelope.Refuses ms why) :
    ((c.execute call false peer).result = some (.error (.remote why)) ↔
      call.endpoint.place.Readable (Client.payloadSchema call) ms) ∧
    (¬ call.endpoint.place.Readable (Client.payloadSchema call) ms →
      ∃ fault, (c.execute call false peer).result =
        some (.error (.post call.endpoint.name (.reply fault)))) := by
  have hresult : (c.execute call false peer).result = some (call.endpoint.outcome
      (((Response.reader (Client.payloadSchema call) call.endpoint.place).run?
        (Text.piecesOfBytes bytes)).mapError .reply)) := by
    refine (Call.execute_result hform hrequest hreach hreply).trans ?_
    rw [Post.Reply.take, if_pos hstatus]
  have hremote : call.endpoint.place.Readable (Client.payloadSchema call) ms →
      (c.execute call false peer).result = some (.error (.remote why)) := by
    intro hread
    obtain ⟨warning, payload, hobject⟩ :=
      Response.ofObject_refuses hwhy (fun _ => place_not_envelope hcall) hread
    rw [hresult, (Response.run?_reader_eq_ok_iff hdoc).2 hobject]
    rfl
  have hreplyFault : ¬ call.endpoint.place.Readable (Client.payloadSchema call) ms →
      ∃ fault, (c.execute call false peer).result =
        some (.error (.post call.endpoint.name (.reply fault))) := by
    intro hread
    obtain ⟨m, hobject⟩ := Response.ofObject_unreadable hread
    cases hrun : (Response.reader (Client.payloadSchema call) call.endpoint.place).run?
        (Text.piecesOfBytes bytes) with
    | ok r =>
      rw [(Response.run?_reader_eq_ok_iff hdoc).1 hrun] at hobject
      cases hobject
    | error fault =>
      refine ⟨fault, ?_⟩
      rw [hresult, hrun]
      rfl
  refine ⟨⟨fun h => ?_, hremote⟩, hreplyFault⟩
  by_contra hread
  obtain ⟨fault, hfault⟩ := hreplyFault hread
  rw [h] at hfault
  cases hfault

/-- A client of a server of its own. -/
def ownClient : Client where
  http := { base := ⟨"http", some { host := .name "slack" }, .segments [""], none, none⟩ }
  token := "t"

/-- The call for the information on a user. -/
def infoCall : Call where
  endpoint := {
    name := "users.info"
    responseField := "user"
    returnType := "crate::objects::User"
    arguments := [
      optional "include_locale" .boolean "Receive the locale for this user.",
      required "user" .text "User to get info on."] }
  held := [
    (optional "include_locale" .boolean "Receive the locale for this user.", .boolean false),
    (required "user" .text "User to get info on.", .text "U1")]

/-- The text `{"ok":false,"error":"no","user":5}`. -/
def refusalBytes : List UInt8 := [
    123, 34, 111, 107, 34, 58, 102, 97, 108, 115, 101, 44, 34, 101, 114, 114, 111, 114, 34, 58,
    34, 110, 111, 34, 44, 34, 117, 115, 101, 114, 34, 58, 53, 125]

theorem refusal_unread : ∃ fault,
    (ownClient.execute infoCall false
      fun _ => [{ result := some (.ok (.answer 200 (some refusalBytes))) }]).result =
        some (.error (.post "users.info" (.reply fault))) := by
  have hform : ownClient.form infoCall = .ok (.ofPairs [("token", "t"), ("user", "U1")]) :=
    eq_ok_of_toOption (by decide +kernel)
  have hrequest : ownClient.http.request "users.info" (.ofPairs [("token", "t"), ("user", "U1")]) =
      .ok ⟨⟨"http", some { host := .name "slack" }, .segments ["users.info"], none, none⟩,
        "token=t&user=U1", none⟩ :=
    eq_ok_of_toOption (by decide +kernel)
  have hdoc : Json.parse (Text.piecesOfBytes refusalBytes) =
      .ok (.object [("ok", .bool false), ("error", .string "no"), ("user", .integer 5)]) := rfl
  have hwhy : Envelope.Refuses [("ok", .bool false), ("error", .string "no"), ("user", .integer 5)]
      "no" := ⟨rfl, rfl, .inl rfl⟩
  have hread : ¬ infoCall.endpoint.place.Readable (Client.payloadSchema infoCall)
      [("ok", .bool false), ("error", .string "no"), ("user", .integer 5)] := by
    rintro (hnone | ⟨j, hone, hj⟩)
    · cases hnone
    · obtain rfl : Json.integer 5 = j := congrArg Prod.snd (List.singleton_inj.1 hone)
      rcases hj with hnull | ⟨v, hv⟩
      · cases hnull
      · have hfails : (Client.payloadSchema infoCall).ofJson (.integer 5) =
            .error (.wrongType (.integer 5) "struct User") := rfl
        rw [hfails] at hv
        cases hv
  exact (refusal_reported_iff (by decide) hform hrequest rfl rfl rfl hdoc hwhy).2 hread

end Slack

end Bindery
