import Bindery.Proofs.Payloads

/-!
# Requests that are not sent

A call that fails before its form is filled sends nothing, and its fault says so: it is local. But
a filled form may lead to no request either, because there is no URL to post it to, because nothing
can be reached under the URL, or because the context ends too early. Such a fault is one of posting,
which does not count as local.
-/
namespace Bindery

/-! Posting -/

namespace Post

/-- A filled form leads to no request, and posting it ends with a fault. -/
inductive Withheld (c : Client) (cancelled : Bool) (endpoint : String) (f : Form)
    (peer : Request → List (Poll Reply)) : Fault → Prop
  | url {why : Url.Fault} (hurl : c.base.join endpoint = .error why) :
    Withheld c cancelled endpoint f peer (.url endpoint why)
  | cancelled {r : Request} (hrequest : c.request endpoint f = .ok r) (hcancelled : cancelled = true) :
    Withheld c cancelled endpoint f peer .cancelled
  /-- The context is cancelled when the race is looked at for the first time. -/
  | stopped {r : Request} {p : Poll Reply} {ps : List (Poll Reply)}
    (hrequest : c.request endpoint f = .ok r) (hpeer : peer r = p :: ps)
    (hstopped : p.cancelled = true) : Withheld c cancelled endpoint f peer .cancelled
  /-- The deadline has passed when the race is looked at for the first time. -/
  | expired {r : Request} {p : Poll Reply} {ps : List (Poll Reply)}
    (hrequest : c.request endpoint f = .ok r) (hcancelled : cancelled = false)
    (hpeer : peer r = p :: ps) (hgoes : p.cancelled = false) (hexpired : p.expired = true) :
    Withheld c cancelled endpoint f peer .deadline
  | unreachable {r : Request} {p : Poll Reply} {ps : List (Poll Reply)}
    (hrequest : c.request endpoint f = .ok r) (hcancelled : cancelled = false)
    (hpeer : peer r = p :: ps) (hreached : p.reachesWork = true) (hurl : canReach r.url = false) :
    Withheld c cancelled endpoint f peer .request

variable {α : Type} {c : Client} {cancelled : Bool} {endpoint : String} {f : Form} {r : Request}
  {why : Fault} {reader : Json.Reader α} {peer : Request → List (Poll Reply)}

theorem request_error (h : c.request endpoint f = .error why) :
    ∃ fault, c.base.join endpoint = .error fault ∧ why = .url endpoint fault := by
  unfold Client.request at h
  cases hjoin : c.base.join endpoint with
  | ok url =>
    rw [hjoin] at h
    cases h
  | error fault =>
    rw [hjoin] at h
    cases h
    exact ⟨fault, rfl, rfl⟩

theorem request_of_join_error {fault : Url.Fault} (h : c.base.join endpoint = .error fault) :
    c.request endpoint f = .error (.url endpoint fault) := by
  rw [Client.request, h]
  rfl

theorem post_of_request_error (h : c.request endpoint f = .error why) :
    c.post reader cancelled endpoint f peer = { result := some (.error why) } := by
  rw [Client.post, h]

theorem post_cancelled (h : c.request endpoint f = .ok r) :
    (c.post reader true endpoint f peer).request = none ∧
      (c.post reader true endpoint f peer).result = some (.error .cancelled) := by
  rw [Client.post, h]
  exact ⟨rfl, rfl⟩

/-- Whether a request is started is decided when the race is looked at for the first time. -/
theorem post_polled (reader : Json.Reader α) {p : Poll Reply} {ps : List (Poll Reply)}
    (h : c.request endpoint f = .ok r) (hpeer : peer r = p :: ps) :
    (c.post reader false endpoint f peer).request =
        (if canReach r.url && p.reachesWork then some r else none) ∧
      (c.post reader false endpoint f peer).result = race? (r.polls reader (p :: ps)) := by
  rw [Client.post, h]
  simp [hpeer]

theorem race_polls_cancelled {p : Poll Reply} {ps : List (Poll Reply)} (h : p.cancelled = true) :
    race? (r.polls reader (p :: ps)) = some (.error .cancelled) := by
  rw [race?, Request.polls, List.map_cons, List.findSome?_cons, Poll.outcome?, if_pos h]

theorem race_polls_expired {p : Poll Reply} {ps : List (Poll Reply)} (h : p.cancelled = false)
    (hexpired : p.expired = true) :
    race? (r.polls reader (p :: ps)) = some (.error .deadline) := by
  rw [race?, Request.polls, List.map_cons, List.findSome?_cons, Poll.outcome?,
    if_neg (by simp [h]), if_pos hexpired]

theorem race_polls_unreachable {p : Poll Reply} {ps : List (Poll Reply)}
    (h : p.reachesWork = true) (hurl : canReach r.url = false) :
    race? (r.polls reader (p :: ps)) = some (.error .request) := by
  simp only [Poll.reachesWork, Bool.and_eq_true, Bool.not_eq_true'] at h
  rw [race?, Request.polls, List.map_cons, List.findSome?_cons, Poll.outcome?,
    if_neg (by simp [h.1]), if_neg (by simp [h.2]), if_neg (by simp [hurl])]

/-- What is withheld is not sent, and ends with the fault that withheld it. -/
theorem Withheld.post (h : Withheld c cancelled endpoint f peer why) :
    (c.post reader cancelled endpoint f peer).request = none ∧
      (c.post reader cancelled endpoint f peer).result = some (.error why) := by
  cases h with
  | url hurl =>
    rw [post_of_request_error (request_of_join_error hurl)]
    exact ⟨rfl, rfl⟩
  | cancelled hrequest hcancelled =>
    subst hcancelled
    exact post_cancelled hrequest
  | stopped hrequest hpeer hstopped =>
    cases cancelled with
    | true => exact post_cancelled hrequest
    | false =>
      obtain ⟨hsent, hresult⟩ := post_polled reader hrequest hpeer
      rw [hsent, hresult, race_polls_cancelled hstopped]
      simp [Poll.reachesWork, hstopped]
  | expired hrequest hcancelled hpeer hgoes hexpired =>
    subst hcancelled
    obtain ⟨hsent, hresult⟩ := post_polled reader hrequest hpeer
    rw [hsent, hresult, race_polls_expired hgoes hexpired]
    simp [Poll.reachesWork, hexpired]
  | unreachable hrequest hcancelled hpeer hreached hurl =>
    subst hcancelled
    obtain ⟨hsent, hresult⟩ := post_polled reader hrequest hpeer
    rw [hsent, hresult, race_polls_unreachable hreached hurl]
    simp [hurl]

/-- What ends without being sent is withheld. -/
theorem exists_withheld {outcome : Except Fault α}
    (hresult : (c.post reader cancelled endpoint f peer).result = some outcome)
    (hunsent : (c.post reader cancelled endpoint f peer).request = none) :
    ∃ why, Withheld c cancelled endpoint f peer why := by
  cases hrequest : c.request endpoint f with
  | error why =>
    obtain ⟨fault, hurl, -⟩ := request_error hrequest
    exact ⟨_, .url hurl⟩
  | ok r =>
    cases hcancelled : cancelled with
    | true => exact ⟨_, .cancelled hrequest rfl⟩
    | false =>
      subst hcancelled
      cases hpeer : peer r with
      | nil =>
        rw [Client.post, hrequest] at hresult
        simp [hpeer, Request.polls, race?] at hresult
      | cons p ps =>
        rw [(post_polled reader hrequest hpeer).1] at hunsent
        cases hstopped : p.cancelled with
        | true => exact ⟨_, .stopped hrequest hpeer hstopped⟩
        | false =>
          cases hexpired : p.expired with
          | true => exact ⟨_, .expired hrequest rfl hpeer hstopped hexpired⟩
          | false =>
            have hreached : p.reachesWork = true := by simp [Poll.reachesWork, hstopped, hexpired]
            refine ⟨_, .unreachable hrequest rfl hpeer hreached ?_⟩
            simpa [hreached] using hunsent

end Post

/-! Calls -/

namespace Call

theorem send_isLocal {f : Form} {p : Argument × Held} {e : Fault} (h : send f p = .error e) :
    e.isLocal = true := by
  unfold send at h
  split at h
  · split at h
    · cases h
      rfl
    · cases h
  · split at h
    · cases h
    · cases h
      rfl

/-- A form that cannot be filled fails locally. -/
theorem form_isLocal {c : Call} {tokenKey token : String} {e : Fault}
    (h : c.form tokenKey token = .error e) : e.isLocal = true := by
  have hsend : ∀ (held : List (Argument × Held)) (f : Form),
      held.foldlM send f = .error e → e.isLocal = true := by
    intro held
    induction held with
    | nil => intro f h; cases h
    | cons p rest ih =>
      intro f h
      rw [List.foldlM_cons] at h
      cases hp : send f p with
      | error why =>
        rw [hp] at h
        cases h
        exact send_isLocal hp
      | ok f' =>
        rw [hp] at h
        exact ih f' h
  exact hsend _ _ h

/-- Nothing that posting leads to is local. -/
theorem outcome_not_isLocal {α : Type} {e : Endpoint} {x : Except Post.Fault (Response α)}
    {why : Fault} (h : e.outcome x = .error why) : why.isLocal = false := by
  unfold Endpoint.outcome at h
  split at h
  · cases h
    rfl
  · unfold Endpoint.payload at h
    split at h
    · cases h
      rfl
    · split at h
      · cases h
      · split at h
        · cases h
        · cases h
          rfl

end Call

namespace Slack

variable {c : Client} {call : Call} {cancelled : Bool} {f : Form} {e : Call.Fault}
  {peer : Post.Request → List (Poll Post.Reply)}

theorem execute_of_form_error (h : c.form call = .error e) :
    c.execute call cancelled peer = { result := some (.error e) } := by
  unfold Client.execute Call.execute
  rw [show call.form _ c.token = .error e from h]

/-- Posting the filled form of a call. -/
def Client.posting (c : Client) (call : Call) (cancelled : Bool) (f : Form)
    (peer : Post.Request → List (Poll Post.Reply)) :
    Post.Posting (Response (Client.payloadSchema call).Value) :=
  c.http.post (Response.reader (Client.payloadSchema call) call.endpoint.place) cancelled
    call.endpoint.name f peer

theorem execute_of_form (h : c.form call = .ok f) (cancelled : Bool)
    (peer : Post.Request → List (Poll Post.Reply)) :
    (c.execute call cancelled peer).request = (c.posting call cancelled f peer).request ∧
      (c.execute call cancelled peer).result =
        (c.posting call cancelled f peer).result.map call.endpoint.outcome := by
  unfold Client.execute Call.execute
  rw [show call.form _ c.token = .ok f from h]
  exact ⟨rfl, rfl⟩

/-- A call that fails has a local fault exactly if its form could not be filled, and then nothing
is sent. Nothing is sent either if the form is withheld, which ends in a fault of posting: so
whether the fault is local says whether nothing was sent unless the form is withheld. -/
theorem isLocal_exact (h : (c.execute call cancelled peer).result = some (.error e)) :
    (e.isLocal = true ↔ c.form call = .error e) ∧
    ((c.execute call cancelled peer).request = none ↔ e.isLocal = true ∨
      ∃ f why, c.form call = .ok f ∧
        Post.Withheld c.http cancelled call.endpoint.name f peer why ∧
        e = .post call.endpoint.name why) ∧
    ((e.isLocal = true ↔ (c.execute call cancelled peer).request = none) ↔
      ¬ ∃ f why, c.form call = .ok f ∧
        Post.Withheld c.http cancelled call.endpoint.name f peer why) := by
  cases hform : c.form call with
  | error why =>
    rw [execute_of_form_error hform] at h ⊢
    cases h
    have hlocal := Call.form_isLocal hform
    simp [hlocal]
  | ok f =>
    obtain ⟨hrequest, hresult⟩ := execute_of_form hform cancelled peer
    rw [hresult] at h
    obtain ⟨outcome, hposted, houtcome⟩ := Option.map_eq_some_iff.1 h
    have hlocal := Call.outcome_not_isLocal houtcome
    have hended : ∀ why, Post.Withheld c.http cancelled call.endpoint.name f peer why →
        (c.posting call cancelled f peer).request = none ∧ e = .post call.endpoint.name why := by
      intro why hwhy
      obtain ⟨hunsent, hfault⟩ : (c.posting call cancelled f peer).request = none ∧
          (c.posting call cancelled f peer).result = some (.error why) := hwhy.post
      obtain rfl := Option.some.inj (hposted.symm.trans hfault)
      cases houtcome
      exact ⟨hunsent, rfl⟩
    have hsent : (c.posting call cancelled f peer).request = none ↔
        ∃ why, Post.Withheld c.http cancelled call.endpoint.name f peer why :=
      ⟨Post.exists_withheld hposted, fun ⟨why, hwhy⟩ => (hended why hwhy).1⟩
    rw [hrequest, hsent]
    refine ⟨by simp [hlocal], ?_, by simp [hlocal]⟩
    constructor
    · rintro ⟨why, hwhy⟩
      exact .inr ⟨f, why, rfl, hwhy, (hended why hwhy).2⟩
    · rintro (hyes | ⟨f', why, hf, hwhy, -⟩)
      · rw [hlocal] at hyes
        cases hyes
      · cases hf
        exact ⟨why, hwhy⟩

/-- A call in a context that is cancelled already sends nothing, and its fault is not local. -/
theorem cancelled_unsent :
    (ownClient.execute testCall true fun _ => []).result =
        some (.error (.post "auth.test" .cancelled)) ∧
      (Call.Fault.post "auth.test" .cancelled).isLocal = false ∧
      (ownClient.execute testCall true fun _ => []).request = none := by
  have hform : ownClient.form testCall = .ok (.ofPairs [("token", "t")]) :=
    eq_ok_of_toOption (by decide +kernel)
  have hrequest : ownClient.http.request testCall.endpoint.name (.ofPairs [("token", "t")]) =
      .ok ⟨⟨"http", some { host := .name "slack" }, .segments ["auth.test"], none, none⟩,
        "token=t", none⟩ :=
    eq_ok_of_toOption (by decide +kernel)
  have hresult : (ownClient.execute testCall true fun _ => []).result =
      some (.error (.post "auth.test" .cancelled)) := by
    rw [(execute_of_form hform _ _).2, Client.posting, (Post.post_cancelled hrequest).2]
    rfl
  exact ⟨hresult, rfl, (isLocal_exact hresult).2.1.2
    (.inr ⟨_, _, hform, .cancelled hrequest rfl, rfl⟩)⟩

end Slack

end Bindery
