import Bindery.Proofs.Sending

/-!
# The key of the token

The token is put into a form first, and what the arguments put in afterwards could replace it. It
stays because validation keeps the key of every argument off its key, whatever values a call holds.
The form of an endpoint that skips the token does not depend on it.
-/
namespace Bindery

namespace Call

/-- A state of the calls of an endpoint: any values for any of its arguments. -/
structure Of (e : Endpoint) (call : Call) : Prop where
  endpoint : call.endpoint = e
  arguments : ∀ p ∈ call.held, p.1 ∈ e.arguments

variable {key : String}

/-- An argument leaves the parameters of other keys as they are. -/
theorem get?_of_send {f f' : Form} {p : Argument × Held} (h : send f p = .ok f')
    (hkey : p.1.queryKey ≠ key) : f'.get? key = f.get? key := by
  obtain ⟨-, -, rfl⟩ := send_eq_ok_iff.1 h
  unfold put
  split
  · rfl
  · exact Form.get?_set_ne f hkey.symm _

theorem get?_of_foldlM_send {held : List (Argument × Held)} {f f' : Form}
    (h : held.foldlM send f = .ok f') (hkeys : ∀ p ∈ held, p.1.queryKey ≠ key) :
    f'.get? key = f.get? key := by
  induction held generalizing f with
  | nil => rw [pure_eq_ok_iff.1 h]
  | cons p rest ih =>
    rw [List.foldlM_cons] at h
    obtain ⟨g, hp, hrest⟩ := bind_eq_ok_iff.1 h
    have hg : g.get? key = f.get? key := get?_of_send hp (hkeys p List.mem_cons_self)
    rw [ih hrest fun q hq => hkeys q (List.mem_cons_of_mem p hq), hg]

variable {call : Call} {e : Endpoint}

/-- A token whose key no argument has is sent as it is. -/
theorem get?_tokenKey {token : String} {f : Form} (hcall : call.Of e)
    (hskip : e.skipToken = false) (hkeys : ∀ a ∈ e.arguments, a.queryKey ≠ key)
    (h : call.form key token = .ok f) : f.get? key = some token := by
  have hstart : call.endpoint.skipToken = false := hcall.endpoint ▸ hskip
  unfold form at h
  rw [hstart] at h
  rw [get?_of_foldlM_send h fun p hp => hkeys p.1 (hcall.arguments p hp)]
  exact Form.get?_set_self Form.empty key token

theorem form_congr_token (hcall : call.Of e) (hskip : e.skipToken = true)
    (token token' : String) : call.form key token = call.form key token' := by
  have hstart : call.endpoint.skipToken = true := hcall.endpoint ▸ hskip
  unfold form
  rw [hstart]
  rfl

end Call

/-- Every call that the functions of a method make is one of its endpoint. -/
theorem Reached.of {e : Endpoint} {m : Method} {call : Call} (h : Reached m call)
    (hm : Method.ofEndpoint e = .ok m) : call.Of e := by
  refine ⟨h.endpoint_eq.trans (ofEndpoint_endpoint hm), fun p hp => ?_⟩
  have hmem : p.1 ∈ m.arguments := by
    rw [← h.map_fst]
    exact List.mem_map_of_mem hp
  exact (arguments_perm hm).mem_iff.1 hmem

/-- The form of an accepted endpoint has the token under its key, exactly as it is, whatever the
arguments hold; if the endpoint skips the token, filling the form gives the same for all tokens. -/
theorem form_token {c : Catalog} {s : Settings} {e : Endpoint} (hv : validate c s = .ok ())
    (he : e ∈ c.endpoints) {call : Call} (hcall : call.Of e) :
    (e.skipToken = false → ∀ token f,
      call.form s.tokenKey token = .ok f → f.get? s.tokenKey = some token) ∧
    (e.skipToken = true → ∀ token token',
      call.form s.tokenKey token = call.form s.tokenKey token') := by
  obtain ⟨ms, hacc⟩ := validate_eq_ok_iff.1 hv
  constructor
  · intro hskip token f h
    have hkeys : ∀ a ∈ e.arguments, a.queryKey ≠ s.tokenKey := fun a ha =>
      ((hacc.fits e he).arguments a ha).notToken hskip
    exact Call.get?_tokenKey hcall hskip hkeys h
  · intro hskip token token'
    exact Call.form_congr_token hcall hskip token token'

/-- An argument is named as the token usually is, and the token is sent under another key. -/
def signed : Endpoint where
  name := "mail.sign"
  arguments := [
    { name := "body", type := .text, queryName := "text" },
    { name := "token", type := .text }]

/-- An endpoint without a token may use its key. -/
def unsigned : Endpoint := { signed with name := "mail.open", skipToken := true }

def signedSettings : Settings := { tokenKey := "key" }

def signedCall (e : Endpoint) : Call :=
  ⟨e, [(signed.arguments[0], .text "hello"), (signed.arguments[1], .text "mine")]⟩

theorem signed_form_token :
    validate ⟨[signed, unsigned]⟩ signedSettings = .ok () ∧
    (signedCall signed).Of signed ∧ (signedCall unsigned).Of unsigned ∧
    (∃ f, (signedCall signed).form "key" "secret" = .ok f ∧ f.get? "key" = some "secret" ∧
      f.get? "token" = some "mine") ∧
    (signedCall unsigned).form "key" "secret" = (signedCall unsigned).form "key" "other" := by
  have hv : validate ⟨[signed, unsigned]⟩ signedSettings = .ok () :=
    eq_ok_of_toOption (by decide +kernel)
  have hsigned : (signedCall signed).Of signed := ⟨rfl, by simp [signedCall, signed]⟩
  have hunsigned : (signedCall unsigned).Of unsigned := ⟨rfl, by simp [signedCall, unsigned, signed]⟩
  have hmem : signed ∈ [signed, unsigned] := by simp
  have hmem' : unsigned ∈ [signed, unsigned] := by simp
  refine ⟨hv, hsigned, hunsigned, ?_, (form_token hv hmem' hunsigned).2 rfl "secret" "other"⟩
  exact ⟨_, rfl, (form_token hv hmem hsigned).1 rfl "secret" _ rfl, by decide +kernel⟩

end Bindery
