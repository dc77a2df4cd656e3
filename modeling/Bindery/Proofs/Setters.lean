import Bindery.Proofs.Sending
import Bindery.Slack.Client

/-!
# Setters of Slack calls

The functions of a Slack call take values of the types its arguments have. A run of them leaves
every argument with the last value it was set to, or the last list with all elements appended since,
and the form is made of exactly these values.
-/
namespace Bindery.Slack

open Json (Schema)

/-! Values -/

/-- What an argument of a type can be set to. -/
def Value : ArgType → Type
  | .text => String
  | .boolean => Bool
  | .integer => Int64
  | .list element => List (schemaOf element).Value
  | .object type => (schemaOf type).Value

/-- What can be appended to an argument of a type. -/
def Item : ArgType → Type
  | .list element => (schemaOf element).Value
  | _ => Empty

/-- The document of an element. -/
def Item.document : (type : ArgType) → Item type → Encodable
  | .list element, v => .ok ((schemaOf element).toJson v)
  | .text, v => nomatch v
  | .boolean, v => nomatch v
  | .integer, v => nomatch v
  | .object _, v => nomatch v

/-- What an argument of a type holds. An object that was never set is none. -/
def Stored : ArgType → Type
  | .text => String
  | .boolean => Bool
  | .integer => Int64
  | .list element => List (schemaOf element).Value
  | .object type => Option (schemaOf type).Value

namespace Stored

def zero : (type : ArgType) → Stored type
  | .text => ("" : String)
  | .boolean => false
  | .integer => (0 : Int64)
  | .list element => ([] : List (schemaOf element).Value)
  | .object type => (none : Option (schemaOf type).Value)

def isZero : (type : ArgType) → Stored type → Bool
  | .text, (s : String) => s == ""
  | .boolean, (b : Bool) => b == false
  | .integer, (n : Int64) => n == 0
  | .list _, vs => List.isEmpty vs
  | .object _, v => Option.isNone v

def ofValue : (type : ArgType) → Value type → Stored type
  | .text, v => v
  | .boolean, v => v
  | .integer, v => v
  | .list _, v => v
  | .object type, v => (some v : Option (schemaOf type).Value)

def extend : (type : ArgType) → Stored type → List (Item type) → Stored type
  | .list element, vs, items =>
    (List.append vs items : List (schemaOf element).Value)
  | .text, v, _ => v
  | .boolean, v, _ => v
  | .integer, v, _ => v
  | .object _, v, _ => v

/-- The text that is sent for an argument that is not zero: the text itself, the flag, the decimal
digits, or the compact document. -/
def encode : (type : ArgType) → Stored type → String
  | .text, (s : String) => s
  | .boolean, _ => "true"
  | .integer, (n : Int64) => toString n.toInt
  | .list element, vs => Json.text (.array (List.map (schemaOf element).toJson vs))
  | .object type, v =>
    match (v : Option (schemaOf type).Value) with
    | some v => Json.text ((schemaOf type).toJson v)
    | none => ""

def held : (type : ArgType) → Stored type → Held
  | .text, (s : String) => .text s
  | .boolean, (b : Bool) => .boolean b
  | .integer, (n : Int64) => .integer n
  | .list element, vs => .list (List.map (fun v => .ok ((schemaOf element).toJson v)) vs)
  | .object type, v => .object (Option.map (fun v => .ok ((schemaOf type).toJson v)) v)

theorem held_zero (type : ArgType) : held type (zero type) = .zero type := by
  cases type <;> rfl

theorem held_isUnset (type : ArgType) (v : Stored type) :
    (held type v).isUnset = isZero type v := by
  cases type with
  | text =>
    have hempty : ∀ s : String, s.isEmpty = (s == "") := by
      intro s
      rw [Bool.eq_iff_iff, String.isEmpty_iff, beq_iff_eq]
    exact hempty v
  | boolean =>
    have hnot : ∀ b : Bool, (!b) = (b == false) := by decide
    exact hnot v
  | integer => rfl
  | list element => exact List.isEmpty_map
  | object type => exact Option.isNone_map

theorem sent_list {α : Type} (f : α → Json) (vs : List α) :
    (Held.list (vs.map fun v => .ok (f v))).sent = .ok (Json.text (.array (vs.map f))) := by
  have hitems : (vs.map fun v => (.ok (f v) : Encodable)).mapM id = .ok (vs.map f) := by
    rw [mapM_eq_ok_iff, List.forall₂_map_left_iff, List.forall₂_map_right_iff,
      List.forall₂_same]
    exact fun v _ => rfl
  rw [Held.sent, hitems]
  rfl

/-- Everything that an argument holds can be written. -/
theorem held_sent (type : ArgType) (v : Stored type) (h : isZero type v = false) :
    (held type v).sent = .ok (encode type v) := by
  cases type with
  | text => rfl
  | boolean =>
    have hsent : ∀ b : Bool, (b == false) = false →
        (Held.boolean b).sent = .ok "true" := by
      intro b hb
      cases b with
      | false => cases hb
      | true => rfl
    exact hsent v h
  | integer => rfl
  | list element => exact sent_list _ v
  | object type =>
    cases v with
    | none => cases h
    | some v => rfl

@[simp] theorem extend_nil (type : ArgType) (v : Stored type) : extend type v [] = v := by
  cases type with
  | list element => exact List.append_nil _
  | _ => rfl

theorem extend_append (type : ArgType) (v : Stored type) (items more : List (Item type)) :
    extend type v (items ++ more) = extend type (extend type v items) more := by
  cases type with
  | list element => exact (List.append_assoc _ _ _).symm
  | _ => rfl

theorem held_extend (type : ArgType) (v : Stored type) (item : Item type) :
    held type (extend type v [item]) = (held type v).append (item.document type) := by
  cases type with
  | list element => exact congrArg Held.list List.map_append
  | _ => exact nomatch item

end Stored

/-! Settings -/

/-- A call of a function that sets an optional argument of a method, or appends to it. -/
inductive Setting (m : Method) where
  | replace (a : Argument) (h : a ∈ m.optional) (value : Value a.type)
  | append (a : Argument) (h : a ∈ m.optional) (item : Item a.type)

namespace Setting

variable {m : Method}

def argument : Setting m → Argument
  | .replace a _ _ => a
  | .append a _ _ => a

def change : Setting m → Change
  | .replace a _ value => .set a.name (Stored.held a.type (.ofValue a.type value))
  | .append a _ item => .append a.name (item.document a.type)

/-- The value that an argument is set to. -/
def value? (a : Argument) : Setting m → Option (Value a.type)
  | .replace b _ value => if h : b = a then some (h ▸ value) else none
  | .append _ _ _ => none

/-- The element that is appended to an argument. -/
def item? (a : Argument) : Setting m → Option (Item a.type)
  | .replace _ _ _ => none
  | .append b _ item => if h : b = a then some (h ▸ item) else none

theorem argument_mem (s : Setting m) : s.argument ∈ m.optional := by
  cases s with
  | replace a h value => exact h
  | append a h item => exact h

theorem change_name (s : Setting m) : s.change.name = s.argument.name := by
  cases s <;> rfl

end Setting

/-- What an argument holds after settings of it: the last value it was set to, with all elements
that were appended later. -/
def latest {m : Method} (a : Argument) (own : List (Setting m)) : Stored a.type :=
  let last := own.reverse.findSome? (Setting.value? a)
  let later := (own.reverse.takeWhile fun s => (s.item? a).isSome).reverse
  Stored.extend a.type ((last.map (.ofValue a.type)).getD (.zero a.type))
    (later.filterMap (Setting.item? a))

/-- What an argument holds after settings. A required one keeps what it was given. -/
def state {m : Method} (given : (a : Argument) → Value a.type) (settings : List (Setting m))
    (a : Argument) : Stored a.type :=
  if a.required then .ofValue a.type (given a) else latest a (settings.filter (·.argument = a))

section Latest

variable {m : Method} {a : Argument}

@[simp] theorem latest_nil : latest (m := m) a [] = .zero a.type := by
  simp [latest]

theorem latest_replace (own : List (Setting m)) (h : a ∈ m.optional) (value : Value a.type) :
    latest a (own ++ [.replace a h value]) = .ofValue a.type value := by
  simp [latest, Setting.value?, Setting.item?]

theorem latest_append (own : List (Setting m)) (h : a ∈ m.optional) (item : Item a.type) :
    latest a (own ++ [.append a h item]) = Stored.extend a.type (latest a own) [item] := by
  rw [latest, latest, ← Stored.extend_append]
  simp [List.findSome?_cons, Setting.value?, Setting.item?]

theorem latest_appends (own : List (Setting m)) (h : a ∈ m.optional) (items : List (Item a.type)) :
    latest a (own ++ items.map (.append a h)) = Stored.extend a.type (latest a own) items := by
  induction items using List.reverseRecOn with
  | nil => simp
  | append_singleton items item ih =>
    rw [List.map_append, ← List.append_assoc, List.map_singleton, latest_append, ih,
      ← Stored.extend_append]

theorem latest_concat (own : List (Setting m)) {s : Setting m} (h : s.argument = a) :
    Stored.held a.type (latest a (own ++ [s])) =
      s.change.held (Stored.held a.type (latest a own)) := by
  cases s with
  | replace b hb value =>
    cases h
    rw [Setting.argument, latest_replace]
    rfl
  | append b hb item =>
    cases h
    rw [Setting.argument, latest_append, Stored.held_extend]
    rfl

end Latest

/-! Runs -/

/-- A call that was made with the given values, and then set. -/
def run (m : Method) (given : (a : Argument) → Value a.type) (settings : List (Setting m)) : Call :=
  Call.run m (fun a => Stored.held a.type (.ofValue a.type (given a))) (settings.map Setting.change)

theorem Stored.hasType_ofValue (type : ArgType) (v : Value type) :
    (held type (ofValue type v)).HasType type := by
  cases type <;> trivial

theorem Setting.fits {m : Method} (s : Setting m) : s.change.Fits m := by
  cases s with
  | replace a h value => exact ⟨a, h, rfl, Stored.hasType_ofValue a.type value⟩
  | append a h item =>
    refine ⟨a, h, rfl, ?_⟩
    cases htype : a.type with
    | list element => rfl
    | _ =>
      rw [htype] at item
      exact nomatch item

section Run

variable {m : Method} (hn : (m.arguments.map (·.name)).Nodup)
  (given : (a : Argument) → Value a.type)
include hn

theorem Setting.name_eq_iff (s : Setting m) {a : Argument} (ha : a ∈ m.arguments) :
    s.change.name = a.name ↔ s.argument = a := by
  rw [s.change_name]
  exact ⟨fun h => List.inj_on_of_nodup_map hn (List.mem_of_mem_filter s.argument_mem) ha h,
    fun h => h ▸ rfl⟩

/-- A run leaves every argument in its state. -/
theorem run_eq (settings : List (Setting m)) :
    run m given settings =
      Call.holding m.endpoint m.arguments fun a => Stored.held a.type (state given settings a) := by
  have hfit : ∀ ch ∈ settings.map Setting.change, ch.Fits m := by
    intro ch hch
    obtain ⟨s, -, rfl⟩ := List.mem_map.1 hch
    exact s.fits
  rw [run, Call.run_eq hn _ hfit]
  unfold Call.holding
  congr 1
  refine List.map_congr_left fun a ha => ?_
  dsimp only
  congr 1
  by_cases hreq : a.required = true
  · rw [Call.after, state, if_pos hreq, if_pos hreq]
  · rw [Call.after, state, if_neg hreq, if_neg hreq, ← foldl_held]
    have hown : (settings.map Setting.change).filter (·.name = a.name) =
        (settings.filter (·.argument = a)).map Setting.change := by
      rw [List.filter_map]
      congr 1
      refine List.filter_congr fun s _ => ?_
      exact decide_eq_decide.2 (s.name_eq_iff hn ha)
    rw [hown]
    have hall : ∀ s ∈ settings.filter (·.argument = a), s.argument = a := fun s hs =>
      of_decide_eq_true (List.mem_filter.1 hs).2
    generalize settings.filter (·.argument = a) = own at hall
    induction own using List.reverseRecOn with
    | nil => rw [latest_nil, Stored.held_zero]; rfl
    | append_singleton own s ih =>
      have hprior := ih fun s' hs' => hall s' (List.mem_append_left _ hs')
      rw [latest_concat own (hall s (by simp)), ← hprior, List.map_append, List.foldl_append]
      rfl

theorem run_congr {settings settings' : List (Setting m)}
    (h : ∀ a ∈ m.arguments, state given settings a = state given settings' a) :
    run m given settings = run m given settings' := by
  rw [run_eq hn, run_eq hn]
  unfold Call.holding
  congr 1
  refine List.map_congr_left fun a ha => ?_
  dsimp only
  rw [h a ha]

end Run

/-! Forms -/

/-- The list of some elements. -/
def Value.ofItems : (type : ArgType) → type.isList = true → List (Item type) → Value type
  | .list _, _, items => items
  | .text, h, _ => nomatch h
  | .boolean, h, _ => nomatch h
  | .integer, h, _ => nomatch h
  | .object _, h, _ => nomatch h

/-- A text for every text, and nothing for all else. -/
def Value.ofText (text : String) : (type : ArgType) → Value type
  | .text => text
  | .boolean => false
  | .integer => (0 : Int64)
  | .list element => ([] : List (schemaOf element).Value)
  | .object type => (schemaOf type).empty

/-- Whether an argument is not set though it must be. -/
def isMissing {m : Method} (given : (a : Argument) → Value a.type) (settings : List (Setting m))
    (a : Argument) : Bool :=
  a.required && Stored.isZero a.type (state given settings a)

/-- What is sent after a run of settings, and which other runs send the same. -/
structure Serializes (client : Client) (m : Method) (given : (a : Argument) → Value a.type)
    (settings : List (Setting m)) : Prop where
  /-- The first of the missing arguments is reported. -/
  missing : (∃ a ∈ m.arguments, isMissing given settings a = true) →
    ∃ a ∈ m.arguments, isMissing given settings a = true ∧
      (∀ b ∈ m.arguments, isMissing given settings b = true → a.name ≤ b.name) ∧
      client.form (run m given settings) = .error (.missingParameter a.name)
  /-- The form holds the token and what is set, and nothing else. -/
  entries : (∀ a ∈ m.arguments, isMissing given settings a = false) →
    ∃ f, client.form (run m given settings) = .ok f ∧
      ∀ key text, f.get? key = some text ↔
        (m.endpoint.skipToken = false ∧ key = "token" ∧ text = client.token) ∨
        ∃ a ∈ m.arguments, Stored.isZero a.type (state given settings a) = false ∧
          key = a.queryKey ∧ text = Stored.encode a.type (state given settings a)
  /-- Settings of different arguments commute. -/
  commute : ∀ s t : Setting m, s.argument ≠ t.argument → ∀ later,
    run m given (settings ++ s :: t :: later) = run m given (settings ++ t :: s :: later)
  /-- Elements can be appended one by one to a list that is empty. -/
  append : ∀ (a : Argument) (h : a ∈ m.optional) (hlist : a.type.isList = true)
    (items : List (Item a.type)), state given settings a = .zero a.type →
    run m given (settings ++ items.map (.append a h)) =
      run m given (settings ++ [.replace a h (.ofItems a.type hlist items)])

theorem catalog_keys : ∀ e ∈ catalog.endpoints,
    (e.arguments.map (·.name)).Nodup ∧ (e.arguments.map Argument.queryKey).Nodup ∧
      (e.skipToken = false → ∀ a ∈ e.arguments, a.queryKey ≠ "token") := by
  decide +kernel

section Forms

variable {m : Method} {given : (a : Argument) → Value a.type} {settings : List (Setting m)}

theorem sendable_state {a : Argument} (h : isMissing given settings a = false) :
    Call.Sendable (a, Stored.held a.type (state given settings a)) where
  optional hunset := by
    rw [Stored.held_isUnset] at hunset
    simpa [isMissing, hunset] using h
  written hset := by
    rw [Stored.held_isUnset] at hset
    exact ⟨_, Stored.held_sent a.type _ hset⟩

theorem wire_held {type : ArgType} {v : Stored type} (h : Stored.isZero type v = false) :
    (Stored.held type v).wire = Stored.encode type v := by
  rw [Held.wire, Stored.held_sent type v h]
  rfl

/-- The first argument that is missing has the least name. -/
theorem form_of_missing (client : Client) (hn : (m.arguments.map (·.name)).Nodup)
    (hsorted : m.arguments.Pairwise fun a b => a.name ≤ b.name)
    (h : ∃ a ∈ m.arguments, isMissing given settings a = true) :
    ∃ a ∈ m.arguments, isMissing given settings a = true ∧
      (∀ b ∈ m.arguments, isMissing given settings b = true → a.name ≤ b.name) ∧
      client.form (run m given settings) = .error (.missingParameter a.name) := by
  obtain ⟨a, hfind⟩ := Option.isSome_iff_exists.1 (List.find?_isSome.2 h)
  obtain ⟨hmiss, pre, post, hsplit, hpre⟩ := List.find?_eq_some_iff_append.1 hfind
  have hpresent : ∀ b ∈ pre, isMissing given settings b = false := fun b hb => by
    simpa using hpre b hb
  refine ⟨a, hsplit ▸ by simp, hmiss, fun b hb hbmiss => ?_, ?_⟩
  · rw [hsplit] at hb hsorted
    rcases List.mem_append.1 hb with hb | hb
    · rw [hpresent b hb] at hbmiss
      cases hbmiss
    · rcases List.mem_cons.1 hb with rfl | hb
      · exact String.le_refl _
      · exact (List.pairwise_cons.1 (List.pairwise_append.1 hsorted).2.1).1 b hb
  · obtain ⟨hreq, hzero⟩ := Bool.and_eq_true_iff.1 hmiss
    rw [Client.form, run_eq hn, hsplit]
    refine Call.form_eq_missing (p := (a, _)) List.map_append ?_ ?_ hreq
    · intro q hq
      obtain ⟨b, hb, rfl⟩ := List.mem_map.1 hq
      exact sendable_state (hpresent b hb)
    · rw [Stored.held_isUnset]
      exact hzero

/-- The arguments that are set at the end of a run. -/
theorem given_run (hn : (m.arguments.map (·.name)).Nodup) :
    (run m given settings).given =
      (m.arguments.filter fun a => !Stored.isZero a.type (state given settings a)).map
        fun a => (a, Stored.held a.type (state given settings a)) := by
  rw [Call.given, run_eq hn, Call.holding, List.filter_map]
  congr 1
  refine List.filter_congr fun a _ => ?_
  rw [Function.comp_apply, Stored.held_isUnset]

/-- If nothing is missing the form holds the token and all arguments that are not zero. -/
theorem form_of_present (client : Client) (hn : (m.arguments.map (·.name)).Nodup)
    (hkeys : (m.arguments.map Argument.queryKey).Nodup)
    (htoken : m.endpoint.skipToken = false → ∀ a ∈ m.arguments, a.queryKey ≠ "token")
    (h : ∀ a ∈ m.arguments, isMissing given settings a = false) :
    ∃ f, client.form (run m given settings) = .ok f ∧
      ∀ key text, f.get? key = some text ↔
        (m.endpoint.skipToken = false ∧ key = "token" ∧ text = client.token) ∨
        ∃ a ∈ m.arguments, Stored.isZero a.type (state given settings a) = false ∧
          key = a.queryKey ∧ text = Stored.encode a.type (state given settings a) := by
  have hsendable : ∀ p ∈ (run m given settings).held, Call.Sendable p := by
    intro p hp
    rw [run_eq hn] at hp
    obtain ⟨a, ha, rfl⟩ := List.mem_map.1 hp
    exact sendable_state (h a ha)
  have hend : (run m given settings).endpoint = m.endpoint := by rw [run_eq hn]; rfl
  have hnodup : (((run m given settings).pairs "token" client.token).map Prod.fst).Nodup := by
    rw [Call.nodup_pairs_iff, given_run hn, List.map_map]
    · exact hkeys.sublist (List.filter_sublist.map _)
    · intro hskip p hp
      rw [given_run hn] at hp
      obtain ⟨a, ha, rfl⟩ := List.mem_map.1 hp
      exact htoken (hend ▸ hskip) a (List.mem_of_mem_filter ha)
  refine ⟨_, Call.form_eq_ok_iff.2 ⟨hsendable, rfl⟩, fun key text => ?_⟩
  rw [Form.get?_ofPairs_eq_some_iff hnodup, Call.pairs, hend, given_run hn, List.map_map,
    List.mem_append]
  refine or_congr ?_ ?_
  · split <;> simp_all
  · rw [List.mem_map]
    constructor
    · rintro ⟨a, ha, hpair⟩
      obtain ⟨hmem, hset⟩ := List.mem_filter.1 ha
      have hzero : Stored.isZero a.type (state given settings a) = false := by simpa using hset
      obtain ⟨rfl, rfl⟩ := Prod.mk.inj hpair
      exact ⟨a, hmem, hzero, rfl, wire_held hzero⟩
    · rintro ⟨a, hmem, hzero, rfl, rfl⟩
      refine ⟨a, List.mem_filter.2 ⟨hmem, by simp [hzero]⟩, ?_⟩
      rw [Function.comp_apply, wire_held hzero]

end Forms

theorem state_concat_of_ne {m : Method} {given : (a : Argument) → Value a.type}
    {settings more : List (Setting m)} {a : Argument} (h : ∀ s ∈ more, s.argument ≠ a) :
    state given (settings ++ more) a = state given settings a := by
  have hnone : more.filter (·.argument = a) = [] := by
    rw [List.filter_eq_nil_iff]
    exact fun s hs => by simpa using h s hs
  rw [state, state, List.filter_append, hnone, List.append_nil]

theorem not_required {m : Method} {a : Argument} (h : a ∈ m.optional) : ¬a.required = true := by
  simpa using (List.mem_filter.1 h).2

theorem state_append {m : Method} {given : (a : Argument) → Value a.type}
    {settings more : List (Setting m)} {a : Argument} (h : a ∈ m.optional)
    (hmore : ∀ s ∈ more, s.argument = a) :
    state given (settings ++ more) a = latest a (settings.filter (·.argument = a) ++ more) := by
  rw [state, if_neg (not_required h), List.filter_append]
  congr 2
  exact List.filter_eq_self.2 fun s hs => decide_eq_true (hmore s hs)

theorem Stored.extend_zero (type : ArgType) (h : type.isList = true) (items : List (Item type)) :
    extend type (zero type) items = ofValue type (Value.ofItems type h items) := by
  cases type with
  | list element => rfl
  | _ => cases h

/-- Every call of the Slack catalog sends exactly what it was set to, whatever the run. -/
theorem serializes_run {e : Endpoint} (he : e ∈ catalog.endpoints) {m : Method}
    (hm : Method.ofEndpoint e = .ok m) (client : Client) (given : (a : Argument) → Value a.type)
    (settings : List (Setting m)) : Serializes client m given settings := by
  obtain ⟨hnames, hkeys, htoken⟩ := catalog_keys e he
  have hperm := arguments_perm hm
  have hn : (m.arguments.map (·.name)).Nodup := (hperm.map _).nodup_iff.2 hnames
  have hend : m.endpoint = e := ofEndpoint_endpoint hm
  have hsorted : m.arguments.Pairwise fun a b => a.name ≤ b.name := by
    rw [ofEndpoint_arguments hm]
    exact sortBy_pairwise _ _
  refine ⟨form_of_missing client hn hsorted, form_of_present client hn ?_ ?_, ?_, ?_⟩
  · exact (hperm.map _).nodup_iff.2 hkeys
  · exact fun hskip a ha => htoken (hend ▸ hskip) a (hperm.mem_iff.1 ha)
  · intro s t hne later
    have hnames : s.change.name ≠ t.change.name := by
      intro h
      rw [t.change_name] at h
      exact hne ((s.name_eq_iff hn (List.mem_of_mem_filter t.argument_mem)).1 h)
    simp only [run, Call.run, List.map_append, List.map_cons, List.foldl_append, List.foldl_cons,
      Call.change_comm _ hnames]
  · intro a h hlist items hzero
    refine run_congr hn given fun b hb => ?_
    by_cases hab : a = b
    · subst hab
      have hown : latest a (settings.filter (·.argument = a)) = .zero a.type := by
        rw [← hzero, state, if_neg (not_required h)]
      rw [state_append h (by simp [Setting.argument]), state_append h (by simp [Setting.argument]),
        latest_appends, latest_replace, hown, Stored.extend_zero]
    · rw [state_concat_of_ne, state_concat_of_ne]
      · simpa [Setting.argument] using hab
      · intro s hs
        obtain ⟨item, -, rfl⟩ := List.mem_map.1 hs
        exact hab

/-- The argument of `channels.create` that may be set. -/
def validateFlag : Argument :=
  optional "validate" .boolean "Fail instead of normalizing an invalid name."

/-- The endpoint that creates a channel. -/
def createChannel : Endpoint where
  name := "channels.create"
  responseField := "channel"
  returnType := "crate::objects::Channel"
  arguments := [required "name" .text "Name of the channel to create.", validateFlag]

def createMethod : Method :=
  ⟨createChannel, "Channels", "Create", "channels", createChannel.arguments⟩

theorem serializes_create :
    ∃ f, Client.form ⟨⟨⟨"https", none, .segments [], none, none⟩, none, 0⟩, "xoxb"⟩
        (run createMethod (fun a => Value.ofText "general" a.type)
          [.replace validateFlag (by decide) true]) = .ok f ∧
      f.get? "name" = some "general" ∧ f.get? "validate" = some "true" ∧
      f.get? "token" = some "xoxb" := by
  have he : createChannel ∈ catalog.endpoints := by decide +kernel
  have hsort : sortArguments createChannel.arguments = createChannel.arguments :=
    List.mergeSort_of_pairwise (by decide)
  have hm : Method.ofEndpoint createChannel = .ok createMethod := by
    rw [Method.ofEndpoint, hsort]
    rfl
  have hall := serializes_run he hm
    ⟨⟨⟨"https", none, .segments [], none, none⟩, none, 0⟩, "xoxb"⟩
    (fun a => Value.ofText "general" a.type) [.replace validateFlag (by decide) true]
  obtain ⟨f, hf, hentries⟩ := hall.entries (by decide +kernel)
  refine ⟨f, hf, (hentries _ _).2 (.inr ⟨_, List.mem_cons_self, ?_⟩),
    (hentries _ _).2 (.inr ⟨validateFlag, by decide, ?_⟩), (hentries _ _).2 (.inl ⟨rfl, rfl, rfl⟩)⟩
  · exact ⟨by decide +kernel, rfl, rfl⟩
  · exact ⟨by decide +kernel, rfl, rfl⟩

/-! Setters by name -/

theorem exists_value {type : ArgType} {doc : Json} {h : Held} (hheld : heldOf type doc = .ok h) :
    ∃ v : Value type, h = Stored.held type (.ofValue type v) := by
  cases type with
  | _ =>
    obtain ⟨v, -, hv⟩ := bind_eq_ok_iff.1 hheld
    exact ⟨v, (pure_eq_ok_iff.1 hv).symm⟩

/-- Every setter that a call can be given by name is one of the settings of its method. -/
theorem exists_setting {e : Endpoint} {m : Method} (hm : Method.ofEndpoint e = .ok m) {call : Call}
    (hcall : call.endpoint = e) {setter : String} {doc : Json} {ch : Change}
    (h : change? call setter doc = some (.ok ch)) : ∃ s : Setting m, s.change = ch := by
  obtain ⟨a, hfind, hch⟩ := Option.map_eq_some_iff.1 h
  have hmem : a ∈ m.arguments := by
    rw [(arguments_perm hm).mem_iff, ← hcall]
    exact List.mem_of_find?_eq_some hfind
  have hname := List.find?_some hfind
  have hopt : a ∈ m.optional := by
    refine List.mem_filter.2 ⟨hmem, ?_⟩
    by_contra hreq
    simp [Argument.setterNames, hreq] at hname
  have hset : ∀ held, heldOf a.type doc = .ok held →
      ∃ s : Setting m, s.change = .set a.name held := by
    intro held hheld
    obtain ⟨v, rfl⟩ := exists_value hheld
    exact ⟨.replace a hopt v, rfl⟩
  obtain ⟨name, type, required, default, queryName, comment, singular⟩ := a
  cases type with
  | list element =>
    unfold changeOf at hch
    dsimp only at hch
    split at hch
    · obtain ⟨v, -, hv⟩ := bind_eq_ok_iff.1 hch
      exact ⟨.append _ hopt v, pure_eq_ok_iff.1 hv⟩
    · obtain ⟨held, hheld, hch⟩ := bind_eq_ok_iff.1 hch
      exact pure_eq_ok_iff.1 hch ▸ hset held hheld
  | _ =>
    obtain ⟨held, hheld, hch⟩ := bind_eq_ok_iff.1 hch
    exact pure_eq_ok_iff.1 hch ▸ hset held hheld

end Bindery.Slack
