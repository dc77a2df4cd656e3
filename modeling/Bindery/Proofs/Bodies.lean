import Bindery.Form.Body
import Bindery.Post.Client
import Bindery.Proofs.Forms
import Bindery.Proofs.Steps
import Bindery.Proofs.Text.Bytes

/-!
# Bodies are read again

A body is read as the pairs of the form it was written for, in the order of their keys. So a body
tells its form, and the order in which a form was filled does not show.
-/
namespace Bindery

namespace Text

/-! Percent escapes -/

theorem hexValue?_hexDigit {n : Nat} (h : n < 16) : hexValue? (hexDigit n) = some n := by
  have hall : ∀ n < 16, hexValue? (hexDigit n) = some n := by decide
  exact hall n h

theorem unescape_escapeByte (b : UInt8) (rest : List Char) :
    unescape (escapeByte b ++ rest) = b :: unescape rest := by
  have hlt : b.toNat < 256 := b.toNat_lt
  have hhigh := hexValue?_hexDigit (n := b.toNat / 16) (by omega)
  have hlow := hexValue?_hexDigit (n := b.toNat % 16) (by omega)
  have hbyte : UInt8.ofNat (b.toNat / 16 * 16 + b.toNat % 16) = b := by
    rw [Nat.div_add_mod', UInt8.ofNat_toNat]
  simp only [escapeByte, List.cons_append, List.nil_append, unescape, hhigh, hlow, hbyte]

theorem unescape_escapeBytes (bytes : List UInt8) (rest : List Char) :
    unescape (bytes.flatMap escapeByte ++ rest) = bytes ++ unescape rest := by
  induction bytes with
  | nil => rfl
  | cons b more ih => rw [List.flatMap_cons, List.append_assoc, unescape_escapeByte, ih,
      List.cons_append]

theorem unescape_cons {c : Char} (h : c ≠ '%') (rest : List Char) :
    unescape (c :: rest) = String.utf8EncodeChar c ++ unescape rest := by
  rw [unescape.eq_2]
  exact fun _ _ _ hc => absurd hc h

/-- An escaped text stands for the bytes of the text, provided that percent signs are escaped. -/
theorem unescape_escape {keep : Char → Bool} (h : keep '%' = false) (s : List Char) :
    unescape (escape keep s) = utf8 s := by
  induction s with
  | nil => rfl
  | cons c rest ih =>
    have hrest : escape keep (c :: rest) =
        (if keep c then [c] else (String.utf8EncodeChar c).flatMap escapeByte) ++
          escape keep rest := rfl
    have hbytes : utf8 (c :: rest) = String.utf8EncodeChar c ++ utf8 rest := rfl
    rw [hrest, hbytes, ← ih]
    split
    · rename_i hc
      refine unescape_cons ?_ _
      rintro rfl
      rw [h] at hc
      cases hc
    · exact unescape_escapeBytes _ _

/-- The characters of an escaped text. -/
theorem mem_escape {keep : Char → Bool} {s : List Char} {c : Char} (h : c ∈ escape keep s) :
    keep c = true ∨ c = '%' ∨ ∃ n < 16, c = hexDigit n := by
  obtain ⟨d, -, hd⟩ := List.mem_flatMap.1 h
  split at hd
  · rename_i hkeep
    obtain rfl := List.mem_singleton.1 hd
    exact .inl hkeep
  · obtain ⟨b, -, hb⟩ := List.mem_flatMap.1 hd
    have hlt : b.toNat < 256 := b.toNat_lt
    simp only [escapeByte, List.mem_cons, List.not_mem_nil, or_false] at hb
    rcases hb with rfl | rfl | rfl
    · exact .inr (.inl rfl)
    · exact .inr (.inr ⟨_, by omega, rfl⟩)
    · exact .inr (.inr ⟨_, by omega, rfl⟩)

end Text

namespace Form

open Text

/-! Keys and values -/

/-- No mark of a body is kept in an escaped text. -/
theorem not_mem_escape {m : Char} (h : m ∈ ['+', '&', '=']) (s : List Char) :
    m ∉ escape (fun c => isPlain c || c == ' ') s := by
  obtain ⟨hkeep, hsign, hdigit⟩ : (isPlain m || m == ' ') = false ∧ m ≠ '%' ∧
      ∀ n < 16, m ≠ hexDigit n := by
    simp only [List.mem_cons, List.not_mem_nil, or_false] at h
    rcases h with rfl | rfl | rfl <;> decide
  intro hmem
  rcases mem_escape hmem with hk | hs | ⟨n, hn, hd⟩
  · rw [hkeep] at hk
    cases hk
  · exact hsign hs
  · exact hdigit n hn hd

/-- Neither separator occurs in a key or a value of a body. -/
theorem not_mem_encodePart {m : Char} (h : m ∈ ['&', '=']) (s : String) : m ∉ encodePart s := by
  intro hmem
  obtain ⟨c, hc, hm⟩ := List.mem_map.1 hmem
  have hplus : m ≠ '+' := by
    rintro rfl
    simp at h
  split at hm
  · exact hplus hm.symm
  · subst hm
    exact not_mem_escape (List.mem_cons_of_mem _ h) _ hc

/-- A key or a value is read again. A plus sign of its own is escaped, so that each one that is
read stands for a blank. -/
theorem decodePart_encodePart (s : String) : decodePart (encodePart s) = s := by
  have hmarks : (encodePart s).map (fun c => if c == '+' then ' ' else c) =
      escape (fun c => isPlain c || c == ' ') s.toList := by
    rw [encodePart, List.map_map]
    refine (List.map_congr_left fun c hc => ?_).trans (List.map_id _)
    have hplus : c ≠ '+' := by
      rintro rfl
      exact not_mem_escape (by simp) _ hc
    by_cases hblank : c = ' '
    · simp [hblank]
    · simp [hblank, hplus]
  rw [decodePart, hmarks, unescape_escape (by decide), lossy_utf8]

/-! Pairs -/

theorem decodePair_encodePair (p : String × String) : decodePair (encodePair p) = p := by
  have hkey : ∀ c ∈ encodePart p.1, (c != '=') = true := fun c hc =>
    bne_iff_ne.2 fun heq => not_mem_encodePart (by simp) p.1 (heq ▸ hc)
  have hspan : (encodePair p).span (· != '=') = (encodePart p.1, '=' :: encodePart p.2) := by
    rw [encodePair, List.span_eq_takeWhile_dropWhile, List.takeWhile_append_of_pos hkey,
      List.dropWhile_append_of_pos hkey]
    simp
  rw [decodePair, hspan]
  simp only [List.tail_cons, decodePart_encodePart]

theorem encodePair_ne_nil (p : String × String) : encodePair p ≠ [] := by
  simp [encodePair]

theorem not_mem_encodePair (p : String × String) : '&' ∉ encodePair p := by
  simp [encodePair, not_mem_encodePart]

/-! Bodies -/

theorem decode_body (f : Form) : decode f.body = f.pairs := by
  rw [decode, body, String.toList_ofList]
  cases hpairs : f.pairs with
  | nil => rfl
  | cons p rest =>
    have hsep : ∀ part ∈ (p :: rest).map encodePair, '&' ∉ part := by
      intro part hpart
      obtain ⟨q, -, rfl⟩ := List.mem_map.1 hpart
      exact not_mem_encodePair q
    have hfull : ∀ part ∈ (p :: rest).map encodePair, (!part.isEmpty) = true := by
      intro part hpart
      obtain ⟨q, -, rfl⟩ := List.mem_map.1 hpart
      simp [encodePair_ne_nil]
    rw [List.splitOn_intercalate '&' hsep (by simp), List.filter_eq_self.2 hfull, List.map_map]
    have hread : decodePair ∘ encodePair = id := funext decodePair_encodePair
    rw [hread, List.map_id]

theorem body_injective {f g : Form} (h : f.body = g.body) : f = g := by
  refine ext ?_
  rw [← decode_body f, ← decode_body g, h]

end Form

namespace Post.Client

variable {α : Type} {c : Client} {reader : Json.Reader α} {cancelled : Bool} {endpoint : String}
  {f : Form} {peer : Request → List (Poll Reply)} {r : Request}

theorem body_of_request (h : c.request endpoint f = .ok r) : r.body = f.body := by
  obtain ⟨url, -, hr⟩ := bind_eq_ok_iff.1 h
  cases hr
  rfl

/-- A request is started if the context lets it and its URL can be reached. -/
theorem request_post_iff : (c.post reader cancelled endpoint f peer).request = some r ↔
    c.request endpoint f = .ok r ∧ cancelled = false ∧ canReach r.url = true ∧
      (peer r).head?.any Poll.reachesWork = true := by
  rw [post]
  split
  · rename_i hmade
    simp [hmade]
  · rename_i made hmade
    cases cancelled with
    | true => simp
    | false =>
      by_cases hstart : (canReach made.url && (peer made).head?.any Poll.reachesWork) = true
      · have hreach := Bool.and_eq_true_iff.1 hstart
        constructor
        · rintro h
          obtain rfl : made = r := by simpa [hstart] using h
          exact ⟨hmade, rfl, hreach⟩
        · rintro ⟨hr, -, -⟩
          cases hmade.symm.trans hr
          simp [hstart]
      · constructor
        · intro h
          simp [hstart] at h
        · rintro ⟨hr, -, hreach⟩
          cases hmade.symm.trans hr
          exact absurd (Bool.and_eq_true_iff.2 hreach) hstart

end Post.Client

namespace Form

/-- The body of a form is read as the parameters of the form, each once and in the order of the
keys, and so is the body that is posted for it. Forms with one body are equal, and a body does not
depend on the order in which parameters with different keys were set. -/
theorem body_faithful (f : Form) :
    (decode f.body = f.pairs ∧ f.pairs.Ascending ∧
      ∀ key value, (key, value) ∈ decode f.body ↔ f.get? key = some value) ∧
    (∀ (α : Type) (c : Post.Client) (reader : Json.Reader α) (cancelled : Bool)
      (endpoint : String) (peer : Post.Request → List (Poll Post.Reply)) (r : Post.Request),
      (c.post reader cancelled endpoint f peer).request = some r →
        r.body = f.body ∧ decode r.body = f.pairs) ∧
    (∀ g : Form, f.body = g.body ↔ f = g) ∧
    ∀ ps qs : List (String × String), (ps.map Prod.fst).Nodup → ps.Perm qs →
      (ps.foldl (fun g p => g.set p.1 p.2) f).body =
        (qs.foldl (fun g p => g.set p.1 p.2) f).body := by
  refine ⟨⟨decode_body f, f.ascending, fun key value => ?_⟩, ?_, fun g => ?_, ?_⟩
  · rw [decode_body, get?_eq_some_iff]
  · intro α c reader cancelled endpoint peer r h
    have hbody := Post.Client.body_of_request (Post.Client.request_post_iff.1 h).1
    exact ⟨hbody, by rw [hbody, decode_body]⟩
  · exact ⟨body_injective, congrArg body⟩
  · intro ps qs hnodup hperm
    rw [foldl_set_perm hnodup hperm f]

/-- Parameters that hold each of the marks of a body, under an empty key among others. -/
def marked : Form := ofPairs [("a&b", "x=y +"), ("", "é%")]

/-- A client of a server of its own. -/
def ownServer : Post.Client where
  base := ⟨"http", some { host := .name "slack" }, .segments [""], none, none⟩

theorem marked_faithful :
    decode marked.body = [("", "é%"), ("a&b", "x=y +")] ∧ marked.body ≠ empty.body ∧
    (∃ r, (ownServer.post (pure ()) false "m" marked fun _ => [{}]).request = some r ∧
      decode r.body = marked.pairs) ∧
    ((marked.set "b" "1").set "a" "2").body = ((marked.set "a" "2").set "b" "1").body := by
  obtain ⟨⟨hread, -, -⟩, hposted, heq, hset⟩ := body_faithful marked
  have hsent : (ownServer.post (pure ()) false "m" marked fun _ => [{}]).request =
        some ⟨⟨"http", some { host := .name "slack" }, .segments ["m"], none, none⟩,
          "=%C3%A9%25&a%26b=x%3Dy+%2B", none⟩ := by
    rw [Post.Client.request_post_iff]
    exact ⟨eq_ok_of_toOption (by decide +kernel), rfl, rfl, rfl⟩
  refine ⟨hread, ?_, ⟨_, hsent, (hposted _ _ _ _ _ _ _ hsent).2⟩, ?_⟩
  · rw [Ne, heq]
    decide
  · exact hset [("b", "1"), ("a", "2")] [("a", "2"), ("b", "1")] (by decide) (.swap _ _ _)

end Form

end Bindery
