import Bindery.Proofs.Acceptance
import Bindery.Proofs.Forms
import Bindery.Proofs.Ordering
import Bindery.Proofs.Runs

/-!
# What calls send

The form of a call is filled with the token and with the arguments that are set, in this order.
Validation keeps the arguments off the key of the token, but not off each other's: a call delivers
everything exactly if the arguments that are set have different keys.
-/
namespace Bindery

/-- The text that is sent, if it can be written. -/
def Held.wire (h : Held) : String := h.sent.toOption.getD ""

namespace Call

/-- The arguments that are set, with what they hold. -/
def given (c : Call) : List (Argument × Held) := c.held.filter (!·.2.isUnset)

/-- The pairs that the form is filled with. -/
def pairs (c : Call) (tokenKey token : String) : List (String × String) :=
  (if c.endpoint.skipToken then [] else [(tokenKey, token)]) ++
    c.given.map fun p => (p.1.queryKey, p.2.wire)

variable {c : Call} {tokenKey token : String} {f : Form}

/-- What an argument with a value must satisfy to get into a form. -/
structure Sendable (p : Argument × Held) : Prop where
  optional : p.2.isUnset = true → p.1.required = false
  written : p.2.isUnset = false → ∃ t, p.2.sent = .ok t

/-- Puts an argument that can be written into a form. -/
def put (f : Form) (p : Argument × Held) : Form :=
  if p.2.isUnset then f else f.set p.1.queryKey p.2.wire

theorem send_eq_ok_iff {p : Argument × Held} {f f' : Form} :
    send f p = .ok f' ↔ Sendable p ∧ True ∧ f' = put f p := by
  unfold send put
  by_cases hunset : p.2.isUnset = true
  · rw [if_pos hunset, if_pos hunset]
    by_cases hreq : p.1.required = true
    · rw [if_pos hreq]
      refine ⟨fun h => (by cases h), fun ⟨h, _⟩ => ?_⟩
      have := h.optional hunset
      rw [hreq] at this
      cases this
    · rw [if_neg hreq]
      have hsendable : Sendable p := ⟨fun _ => Bool.eq_false_iff.2 hreq, fun h => by
        rw [hunset] at h; cases h⟩
      exact ⟨fun h => ⟨hsendable, trivial, (Except.ok.inj h).symm⟩, fun h => h.2.2 ▸ rfl⟩
  · rw [if_neg hunset, if_neg hunset]
    cases hsent : p.2.sent with
    | ok t =>
      have hwire : p.2.wire = t := by rw [Held.wire, hsent]; rfl
      have hsendable : Sendable p := ⟨fun h => absurd h hunset, fun _ => ⟨t, hsent⟩⟩
      rw [hwire]
      exact ⟨fun h => ⟨hsendable, trivial, (Except.ok.inj h).symm⟩, fun h => h.2.2 ▸ rfl⟩
    | error why =>
      refine ⟨fun h => (by cases h), fun ⟨h, _⟩ => ?_⟩
      obtain ⟨t, ht⟩ := h.written (Bool.eq_false_iff.2 hunset)
      rw [hsent] at ht
      cases ht

theorem foldlM_send_eq_ok_iff {held : List (Argument × Held)} {f f' : Form} :
    held.foldlM send f = .ok f' ↔ (∀ p ∈ held, Sendable p) ∧ True ∧ f' = held.foldl put f :=
  @foldlM_eq_ok_iff _ _ _ send put (fun _ => True) Sendable (fun _ _ _ _ => send_eq_ok_iff)
    (fun _ _ _ => trivial) _ _ _ trivial

theorem foldl_put (held : List (Argument × Held)) (f : Form) :
    held.foldl put f =
      ((held.filter (!·.2.isUnset)).map fun p => (p.1.queryKey, p.2.wire)).foldl
        (fun f p => f.set p.1 p.2) f := by
  induction held generalizing f with
  | nil => rfl
  | cons p rest ih =>
    rw [List.foldl_cons, ih]
    by_cases h : p.2.isUnset = true
    · simp [put, h]
    · simp [put, h]

/-- A form is sent if no required argument is unset and every value that is set can be written. -/
theorem form_eq_ok_iff :
    c.form tokenKey token = .ok f ↔
      (∀ p ∈ c.held, Sendable p) ∧ f = Form.ofPairs (c.pairs tokenKey token) := by
  have hpairs : Form.ofPairs (c.pairs tokenKey token) = c.held.foldl put
      (if c.endpoint.skipToken then Form.empty else Form.empty.set tokenKey token) := by
    rw [foldl_put, Form.ofPairs, pairs, List.foldl_append]
    split <;> rfl
  unfold form
  dsimp only
  rw [foldlM_send_eq_ok_iff, hpairs, true_and]

/-- The first required argument that is not set ends the filling of the form. -/
theorem form_eq_missing {pre post : List (Argument × Held)} {p : Argument × Held}
    (hheld : c.held = pre ++ p :: post) (hpre : ∀ q ∈ pre, Sendable q)
    (hunset : p.2.isUnset = true) (hreq : p.1.required = true) :
    c.form tokenKey token = .error (.missingParameter p.1.name) := by
  have hsend : ∀ f, send f p = .error (.missingParameter p.1.name) := by
    intro f
    rw [send, if_pos hunset, if_pos hreq]
  unfold form
  dsimp only
  rw [hheld, List.foldlM_append, foldlM_send_eq_ok_iff.2 ⟨hpre, trivial, rfl⟩]
  change (do let f ← send _ p; post.foldlM send f) = _
  rw [hsend]
  rfl

/-- A form holds all that a call was to send. -/
structure Delivered (c : Call) (tokenKey token : String) (f : Form) : Prop where
  values : ∀ p ∈ c.given, ∃ t, p.2.sent = .ok t ∧ f.get? p.1.queryKey = some t
  token : c.endpoint.skipToken = false → f.get? tokenKey = some token
  size : f.size = c.given.length + if c.endpoint.skipToken then 0 else 1

theorem length_pairs : (c.pairs tokenKey token).length =
    c.given.length + if c.endpoint.skipToken then 0 else 1 := by
  rw [pairs, List.length_append, List.length_map]
  split <;> simp [Nat.add_comm]

/-- Keys other than that of the token come twice only if two arguments that are set share one. -/
theorem nodup_pairs_iff
    (htoken : c.endpoint.skipToken = false → ∀ p ∈ c.given, p.1.queryKey ≠ tokenKey) :
    ((c.pairs tokenKey token).map Prod.fst).Nodup ↔
      (c.given.map (·.1.queryKey)).Nodup := by
  by_cases hskip : c.endpoint.skipToken = true
  · simp [pairs, hskip, Function.comp_def]
  · have hnot : tokenKey ∉ c.given.map (·.1.queryKey) := by
      intro hmem
      obtain ⟨p, hp, hkey⟩ := List.mem_map.1 hmem
      exact htoken (Bool.eq_false_iff.2 hskip) p hp hkey
    simp only [pairs, if_neg hskip, List.singleton_append, List.map_cons, List.map_map,
      Function.comp_def, List.nodup_cons, hnot, not_false_eq_true, true_and]

theorem delivered_iff
    (htoken : c.endpoint.skipToken = false → ∀ p ∈ c.given, p.1.queryKey ≠ tokenKey)
    (hf : c.form tokenKey token = .ok f) :
    c.Delivered tokenKey token f ↔ (c.given.map (·.1.queryKey)).Nodup := by
  obtain ⟨hall, rfl⟩ := form_eq_ok_iff.1 hf
  rw [← @nodup_pairs_iff c tokenKey token htoken]
  constructor
  · intro h
    rw [← Form.size_ofPairs_eq_iff, length_pairs]
    exact h.size
  · intro h
    refine ⟨fun p hp => ?_, fun hskip => ?_, ?_⟩
    · obtain ⟨hmem, hset⟩ := List.mem_filter.1 hp
      obtain ⟨t, ht⟩ := (hall p hmem).written (by simpa using hset)
      refine ⟨t, ht, (Form.get?_ofPairs_eq_some_iff h).2 ?_⟩
      have hwire : p.2.wire = t := by rw [Held.wire, ht]; rfl
      exact List.mem_append_right _ (List.mem_map.2 ⟨p, hp, by rw [hwire]⟩)
    · rw [Form.get?_ofPairs_eq_some_iff h]
      simp [pairs, hskip]
    · rw [(Form.size_ofPairs_eq_iff _).2 h, length_pairs]

end Call

/-! Calls of accepted endpoints -/

section Accepted

variable {c : Catalog} {s : Settings} {e : Endpoint} {m : Method}

/-- No argument of an accepted endpoint is sent under the key of the token. -/
theorem queryKey_ne_tokenKey (hv : validate c s = .ok ()) (he : e ∈ c.endpoints)
    (hm : Method.ofEndpoint e = .ok m) {call : Call} (hcall : Reached m call)
    (hskip : call.endpoint.skipToken = false) {p : Argument × Held} (hp : p ∈ call.given) :
    p.1.queryKey ≠ s.tokenKey := by
  obtain ⟨ms, hacc⟩ := validate_eq_ok_iff.1 hv
  have hend : call.endpoint = e := hcall.endpoint_eq.trans (ofEndpoint_endpoint hm)
  have hmem : p.1 ∈ m.arguments := by
    rw [← hcall.map_fst]
    exact List.mem_map.2 ⟨p, List.mem_of_mem_filter hp, rfl⟩
  rw [hend] at hskip
  exact ((hacc.fits e he).arguments p.1 ((arguments_perm hm).mem_iff.1 hmem)).notToken hskip

end Accepted

/-! A call with everything set -/

namespace Held

/-- Some value of a type that is sent. -/
def sample : ArgType → Held
  | .text => .text "x"
  | .boolean => .boolean true
  | .integer => .integer 1
  | .list _ => .list [.ok .null]
  | .object _ => .object (some (.ok .null))

theorem sample_hasType (type : ArgType) : (sample type).HasType type := by
  cases type <;> trivial

theorem sample_isUnset (type : ArgType) : (sample type).isUnset = false := by
  cases type <;> rfl

theorem sample_sent (type : ArgType) : ∃ t, (sample type).sent = .ok t := by
  cases type <;> exact ⟨_, rfl⟩

end Held

/-- Sets an argument to a value that is sent. -/
def Argument.fillIn (a : Argument) : Change := .set a.name (.sample a.type)

/-- The call with all arguments set. -/
def Method.filled (m : Method) : Call :=
  Call.run m (fun a => .sample a.type) (m.optional.map Argument.fillIn)

theorem reached_filled (m : Method) : Reached m m.filled := by
  refine reached_run (fun a _ => Held.sample_hasType a.type) fun ch hch => ?_
  obtain ⟨a, ha, rfl⟩ := List.mem_map.1 hch
  exact ⟨a, ha, rfl, Held.sample_hasType a.type⟩

/-- An argument is the only one of its name. -/
theorem filter_name_eq {args : List Argument} (hn : (args.map (·.name)).Nodup) {a : Argument}
    (ha : a ∈ args) : args.filter (·.name = a.name) = [a] := by
  have hsame : ∀ b ∈ args, decide (b.name = a.name) = decide (b = a) := by
    intro b hb
    rw [decide_eq_decide]
    exact ⟨fun h => List.inj_on_of_nodup_map hn hb ha h, fun h => h ▸ rfl⟩
  rw [List.filter_congr hsame, List.filter_eq, List.count_eq_one_of_mem hn.of_map ha,
    List.replicate_one]

theorem held_filled {m : Method} (hn : (m.arguments.map (·.name)).Nodup) :
    m.filled.held = m.arguments.map fun a => (a, Held.sample a.type) := by
  have hfit : ∀ ch ∈ m.optional.map Argument.fillIn, ch.Fits m := by
    intro ch hch
    obtain ⟨a, ha, rfl⟩ := List.mem_map.1 hch
    exact ⟨a, ha, rfl, Held.sample_hasType a.type⟩
  rw [Method.filled, Call.run_eq hn _ hfit]
  refine List.map_congr_left fun a ha => ?_
  rw [Prod.mk.injEq]
  refine ⟨rfl, ?_⟩
  by_cases hreq : a.required = true
  · simp [Call.after, hreq]
  · have hopt : a ∈ m.optional := List.mem_filter.2 ⟨ha, by simpa using hreq⟩
    have hown : (m.optional.map Argument.fillIn).filter (·.name = a.name) = [a.fillIn] := by
      have honly := filter_name_eq (hn.sublist (List.filter_sublist.map _)) hopt
      rw [List.filter_map]
      exact congrArg (List.map Argument.fillIn) honly
    simp [Call.after, hreq, hown, Held.latest, List.findSome?_cons, Argument.fillIn,
      Change.value?, Change.item?]

/-- A call of an accepted endpoint delivers everything exactly if the arguments that are set have
different keys, and every call does exactly if all arguments have. -/
theorem delivered_iff_keys_nodup {c : Catalog} {s : Settings} {e : Endpoint} {m : Method}
    (hv : validate c s = .ok ()) (he : e ∈ c.endpoints) (hm : Method.ofEndpoint e = .ok m) :
    (∀ call, Reached m call → ∀ token f, call.form s.tokenKey token = .ok f →
      (call.Delivered s.tokenKey token f ↔ (call.given.map (·.1.queryKey)).Nodup)) ∧
    ((∀ call, Reached m call → ∀ token f, call.form s.tokenKey token = .ok f →
      call.Delivered s.tokenKey token f) ↔ (e.arguments.map Argument.queryKey).Nodup) := by
  have hstate : ∀ call, Reached m call → ∀ token f, call.form s.tokenKey token = .ok f →
      (call.Delivered s.tokenKey token f ↔ (call.given.map (·.1.queryKey)).Nodup) :=
    fun call hcall _ _ hf => Call.delivered_iff
      (fun hskip _ hp => queryKey_ne_tokenKey hv he hm hcall hskip hp) hf
  refine ⟨hstate, ?_⟩
  rw [← ((arguments_perm hm).map _).nodup_iff]
  constructor
  · intro h
    obtain ⟨ms, hacc⟩ := validate_eq_ok_iff.1 hv
    have hn : (m.arguments.map (·.name)).Nodup :=
      ((arguments_perm hm).map _).nodup_iff.2 (hacc.fits e he).names
    have hheld := held_filled hn
    have hgiven : m.filled.given = m.filled.held := by
      rw [Call.given, List.filter_eq_self, hheld]
      intro p hp
      obtain ⟨a, -, rfl⟩ := List.mem_map.1 hp
      rw [Held.sample_isUnset]
      rfl
    have hsendable : ∀ p ∈ m.filled.held, Call.Sendable p := by
      intro p hp
      rw [hheld] at hp
      obtain ⟨a, -, rfl⟩ := List.mem_map.1 hp
      refine ⟨fun hunset => ?_, fun _ => Held.sample_sent a.type⟩
      rw [Held.sample_isUnset] at hunset
      cases hunset
    have hform : m.filled.form s.tokenKey "" = .ok _ := Call.form_eq_ok_iff.2 ⟨hsendable, rfl⟩
    have hkeys := (hstate _ (reached_filled m) _ _ hform).1 (h _ (reached_filled m) _ _ hform)
    rw [hgiven, hheld, List.map_map] at hkeys
    exact hkeys
  · intro h call hcall token f hf
    rw [hstate call hcall token f hf]
    have hsub : (call.given.map (·.1.queryKey)).Sublist (call.held.map (·.1.queryKey)) :=
      List.filter_sublist.map _
    refine List.Nodup.sublist hsub ?_
    rw [← hcall.map_fst, List.map_map] at h
    exact h

/-- An endpoint with two arguments of one key. -/
def clashing : Endpoint where
  name := "chat.post"
  arguments := [
    { name := "body", type := .text, queryName := "text" },
    { name := "text", type := .text }]

def clashingMethod : Method := ⟨clashing, "Chat", "Post", "chat", clashing.arguments⟩

theorem clashing_not_delivered :
    validate ⟨[clashing]⟩ {} = .ok () ∧
    ¬ ∀ call, Reached clashingMethod call → ∀ token f,
      call.form ({} : Settings).tokenKey token = .ok f →
        call.Delivered ({} : Settings).tokenKey token f := by
  have hv : validate ⟨[clashing]⟩ {} = .ok () :=
    eq_ok_of_toOption (by decide +kernel)
  have hsort : sortArguments clashing.arguments = clashing.arguments :=
    List.mergeSort_of_pairwise (by decide)
  have hm : Method.ofEndpoint clashing = .ok clashingMethod := by
    rw [Method.ofEndpoint, hsort]
    rfl
  refine ⟨hv, ?_⟩
  rw [(delivered_iff_keys_nodup hv (List.mem_singleton_self _) hm).2]
  decide

end Bindery
