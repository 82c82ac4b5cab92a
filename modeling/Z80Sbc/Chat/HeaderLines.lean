import Z80Sbc.Chat.Endpoint

/-! # The lines of a header

What the settings give is fit for a header: its bytes are printable, and the key is there for the
one provider only. -/

namespace Z80Sbc.Chat.HeaderLines
open Z80Sbc.Chat
open Z80Sbc.Env (Entry getValue normalizeKey)

/-- No blank, no control, and nothing above. -/
def Printable (s : List UInt8) : Prop := ∀ c ∈ s, 32 < c ∧ c < 127

theorem printable_of_not_any {s : List UInt8} {p : UInt8 → Bool}
    (hp : ∀ c, p c = false → 32 < c ∧ c < 127) (h : ¬ s.any p = true) : Printable s := by
  intro c hc
  have hno := List.any_eq_false.mp (Bool.not_eq_true _ ▸ h) c hc
  exact hp c (Bool.eq_false_iff.mpr hno)

theorem printable_of_refused {c : UInt8} (h : refusedByte c = false) : 32 < c ∧ c < 127 := by
  simp only [refusedByte, Bool.or_eq_false_iff, decide_eq_false_iff_not] at h
  exact ⟨UInt8.not_le.mp h.1.1.1.1, UInt8.not_le.mp h.1.1.1.2⟩

/-! ## The endpoint -/

/-- The parts of what stands behind the scheme. -/
structure Parts (host : List UInt8) (e : Endpoint) : Prop where
  whole : host = e.authority ++ e.path
  slash : 47 ∉ e.authority ∧ e.path.head? = some 47
  printable : Printable e.authority ∧ Printable e.path
  host : e.host = e.authority.takeWhile (· ≠ 58)

theorem head_dropWhile {s : List UInt8} (h : s.dropWhile (· ≠ 47) ≠ []) :
    (s.dropWhile (· ≠ 47)).head? = some 47 := by
  have hhead := List.head_dropWhile_not (fun c : UInt8 => decide (c ≠ 47)) h
  rw [decide_eq_false_iff_not, ne_eq, Decidable.not_not] at hhead
  rw [List.head?_eq_some_head h, hhead]

theorem parseHost_parts {host : List UInt8} {e e' : Endpoint}
    (h : parseHost host e = (true, e')) :
    Parts host e' ∧ e'.https = e.https ∧ e'.key = e.key := by
  have hstop : ∀ e : Endpoint, (false, e) ≠ (true, e') := fun e he => by cases he
  unfold parseHost at h
  by_cases hsize : host.dropWhile (· ≠ 47) = [] ∨ host.takeWhile (· ≠ 47) = [] ∨
      authoritySize ≤ (host.takeWhile (· ≠ 47)).length ∨
        pathSize ≤ (host.dropWhile (· ≠ 47)).length
  · rw [if_pos hsize] at h
    exact absurd h (hstop _)
  rw [if_neg hsize] at h
  by_cases hbytes : host.any refusedByte = true
  · rw [if_pos hbytes] at h
    exact absurd h (hstop _)
  rw [if_neg hbytes] at h
  have hprintable : Printable host := printable_of_not_any (fun c => printable_of_refused) hbytes
  have hpath : host.dropWhile (· ≠ 47) ≠ [] := fun hc => hsize (Or.inl hc)
  -- the endpoint, whatever the port is
  have hparts : ∀ port, Parts host
      { e with
        authority := host.takeWhile (· ≠ 47)
        path := host.dropWhile (· ≠ 47)
        host := (host.takeWhile (· ≠ 47)).takeWhile (· ≠ 58)
        port } := by
    intro port
    refine ⟨List.takeWhile_append_dropWhile.symm, ⟨fun hc => ?_, head_dropWhile hpath⟩,
      ⟨fun c hc => ?_, fun c hc => ?_⟩, rfl⟩
    · have hne := List.mem_takeWhile_imp hc
      exact absurd hne (by decide)
    · exact hprintable c (List.takeWhile_subset _ hc)
    · exact hprintable c ((List.dropWhile_suffix _).subset hc)
  by_cases hname : (host.takeWhile (· ≠ 47)).takeWhile (· ≠ 58) = [] ∨
      hostSize ≤ ((host.takeWhile (· ≠ 47)).takeWhile (· ≠ 58)).length
  · rw [if_pos hname] at h
    exact absurd h (hstop _)
  rw [if_neg hname] at h
  split at h
  next => exact absurd h (hstop _)
  next =>
    split at h
    next => cases h; exact ⟨hparts e.port, rfl, rfl⟩
    next digits =>
      split at h
      next => exact absurd h (hstop _)
      next port _ => cases h; exact ⟨hparts port, rfl, rfl⟩

theorem parseEndpoint_parts {url : List UInt8} {e e' : Endpoint}
    (h : parseEndpoint url e = (true, e')) :
    ∃ host, url = (if e'.https then httpsScheme else httpScheme) ++ host ∧ Parts host e' ∧
      e'.key = e.key := by
  unfold parseEndpoint at h
  split at h
  next hprefix =>
    obtain ⟨host, rfl⟩ := List.isPrefixOf_iff_prefix.mp hprefix
    have hdrop : (httpsScheme ++ host).drop 8 = host := List.drop_left' (by decide)
    rw [hdrop] at h
    obtain ⟨hparts, hhttps, hkey⟩ := parseHost_parts h
    exact ⟨host, by rw [hhttps]; rfl, hparts, hkey⟩
  next =>
    split at h
    next hprefix =>
      obtain ⟨host, rfl⟩ := List.isPrefixOf_iff_prefix.mp hprefix
      have hdrop : (httpScheme ++ host).drop 7 = host := List.drop_left' (by decide)
      rw [hdrop] at h
      obtain ⟨hparts, hhttps, hkey⟩ := parseHost_parts h
      exact ⟨host, by rw [hhttps]; rfl, hparts, hkey⟩
    next => cases h

/-! ## The settings -/

def apiHost : List UInt8 := text "api.openai.com".toList

/-- The credential goes to the one host, and what another provider is given has none. -/
structure Configured (env : Option (List Entry)) (e : Endpoint) : Prop where
  printable : Printable e.authority ∧ Printable e.path ∧ Printable e.key
  provider : ∃ entries, env = some entries ∧
    ((setting entries providerName 16 = some [] ∨
        setting entries providerName 16 = some openai) ∧
      setting entries keyName keySize = some e.key ∧
        e = ⟨true, 443, apiHost, apiHost, text "/v1/chat/completions".toList, e.key⟩ ∨
    (∃ url host, setting entries endpointName 256 = some url ∧ e.key = [] ∧
      url = (if e.https then httpsScheme else httpScheme) ++ host ∧ Parts host e))

theorem parsed_openai (key : List UInt8) : parsed openaiUrl { Endpoint.zero with key } =
    (none, ⟨true, 443, apiHost, apiHost, text "/v1/chat/completions".toList, key⟩) := by
  rfl

theorem printable_of_all {s : List UInt8}
    (h : (s.all fun c => decide (32 < c ∧ c < 127)) = true) : Printable s :=
  fun c hc => of_decide_eq_true (List.all_eq_true.mp h c hc)

theorem printable_openai : Printable apiHost ∧ Printable (text "/v1/chat/completions".toList) :=
  ⟨printable_of_all (by decide), printable_of_all (by decide)⟩

theorem parsed_ok {url : List UInt8} {e e' : Endpoint} (h : parsed url e = (none, e')) :
    parseEndpoint url e = (true, e') := by
  unfold parsed at h
  generalize parseEndpoint url e = r at h ⊢
  obtain ⟨ok, e''⟩ := r
  cases ok with
  | false => cases h
  | true =>
    cases h
    rfl

theorem loadSettings_configured {env : Option (List Entry)} {e : Endpoint}
    (h : loadSettings env = (none, e)) : Configured env e := by
  unfold loadSettings at h
  split at h
  next => cases h
  next entries =>
    split at h
    next => cases h
    next provider hprovider =>
      split at h
      next hopenai =>
        split at h
        next => cases h
        next key hkey =>
          dsimp only at h
          split at h
          next => cases h
          next =>
            split at h
            next => cases h
            next hbytes =>
              rw [parsed_openai] at h
              cases h
              have hprintable : Printable key := printable_of_not_any (fun c hc => by
                rw [Bool.or_eq_false_iff, decide_eq_false_iff_not, decide_eq_false_iff_not] at hc
                exact ⟨UInt8.not_le.mp hc.1, UInt8.not_le.mp hc.2⟩) hbytes
              refine ⟨⟨printable_openai.1, printable_openai.2, hprintable⟩, entries, rfl,
                Or.inl ⟨?_, hkey, rfl⟩⟩
              rcases hopenai with rfl | rfl
              · exact Or.inl hprovider
              · exact Or.inr hprovider
      next =>
        split at h
        next =>
          split at h
          next => cases h
          next url hurl =>
            obtain ⟨host, hwhole, hparts, hkey⟩ := parseEndpoint_parts (parsed_ok h)
            refine ⟨⟨hparts.printable.1, hparts.printable.2, ?_⟩, entries, rfl,
              Or.inr ⟨url, host, hurl, hkey, hwhole, hparts⟩⟩
            rw [hkey]
            exact fun c hc => absurd hc List.not_mem_nil
        next => cases h

/-! ## The lines -/

def crlf : List UInt8 := [13, 10]

def authorization : List UInt8 := text "Authorization: Bearer ".toList

/-- The lines of the format string. -/
def headerLines (e : Endpoint) (length : Nat) : List (List UInt8) :=
  [text "POST ".toList ++ e.path ++ text " HTTP/1.1".toList,
    text "Host: ".toList ++ e.authority,
    text "Content-Type: application/json".toList,
    text "Accept: text/event-stream".toList,
    text "Accept-Encoding: identity".toList,
    text "Connection: close".toList,
    text "Content-Length: ".toList ++ decimal length] ++
  if e.key = [] then [] else [authorization ++ e.key]

theorem headerText_lines (e : Endpoint) (length : Nat) :
    headerText e length = (headerLines e length).flatMap (· ++ crlf) ++ crlf := by
  have hhost : text " HTTP/1.1\r\nHost: ".toList =
      text " HTTP/1.1".toList ++ crlf ++ text "Host: ".toList := by decide
  have htype : text "\r\nContent-Type: application/json\r\n".toList =
      crlf ++ text "Content-Type: application/json".toList ++ crlf := by decide
  have haccept : text "Accept: text/event-stream\r\nAccept-Encoding: identity\r\n".toList =
      text "Accept: text/event-stream".toList ++ crlf ++
        text "Accept-Encoding: identity".toList ++ crlf := by decide
  have hclose : text "Connection: close\r\nContent-Length: ".toList =
      text "Connection: close".toList ++ crlf ++ text "Content-Length: ".toList := by decide
  have hend : text "\r\n".toList = crlf := by decide
  unfold headerText headerLines authorization
  rw [hhost, htype, haccept, hclose, hend]
  by_cases hkey : e.key = []
  · simp [hkey]
  · simp [hkey]

theorem decimal_digit {n : Nat} {c : UInt8} (h : c ∈ decimal n) : 48 ≤ c ∧ c ≤ 57 := by
  obtain ⟨d, hd, rfl⟩ := List.mem_map.mp h
  have hdigit := Nat.isDigit_of_mem_toDigits (by decide) (by decide) hd
  have hrange : 48 ≤ d.toNat ∧ d.toNat ≤ 57 := by
    simpa [Char.isDigit, UInt32.le_iff_toNat_le] using hdigit
  rw [UInt8.le_iff_toNat_le, UInt8.le_iff_toNat_le, UInt8.toNat_ofNat']
  have h48 : (48 : UInt8).toNat = 48 := rfl
  have h57 : (57 : UInt8).toNat = 57 := rfl
  omega

/-- No byte ends a line. -/
def Whole (s : List UInt8) : Prop := 13 ∉ s ∧ 10 ∉ s

instance (s : List UInt8) : Decidable (Whole s) := inferInstanceAs (Decidable (_ ∧ _))

theorem Whole.append {s t : List UInt8} (hs : Whole s) (ht : Whole t) : Whole (s ++ t) :=
  ⟨fun hc => (List.mem_append.mp hc).elim hs.1 ht.1,
    fun hc => (List.mem_append.mp hc).elim hs.2 ht.2⟩

theorem Printable.whole {s : List UInt8} (h : Printable s) : Whole s :=
  ⟨fun hc => absurd (h 13 hc).1 (by decide), fun hc => absurd (h 10 hc).1 (by decide)⟩

theorem decimal_whole (n : Nat) : Whole (decimal n) :=
  ⟨fun hc => absurd (decimal_digit hc).1 (by decide),
    fun hc => absurd (decimal_digit hc).1 (by decide)⟩

theorem headerLines_whole {env : Option (List Entry)} {e : Endpoint} (h : Configured env e)
    {length : Nat} {line : List UInt8} (hline : line ∈ headerLines e length) : Whole line := by
  obtain ⟨hauthority, hpath, hkey⟩ := h.printable
  simp only [headerLines, List.mem_append, List.mem_cons, List.not_mem_nil, or_false] at hline
  rcases hline with (rfl | rfl | rfl | rfl | rfl | rfl | rfl) | hline
  · exact (Whole.append (by decide) hpath.whole).append (by decide)
  · exact Whole.append (by decide) hauthority.whole
  · decide
  · decide
  · decide
  · decide
  · exact Whole.append (by decide) (decimal_whole length)
  · split at hline
    next => exact absurd hline List.not_mem_nil
    next =>
      rw [List.mem_singleton.mp hline]
      exact Whole.append (by decide) hkey.whole

/-- There is a credential line only with a key. -/
theorem authorization_line {e : Endpoint} {length : Nat} {line : List UInt8}
    (hline : line ∈ headerLines e length) (h : authorization <+: line) : e.key ≠ [] := by
  simp only [headerLines, List.mem_append, List.mem_cons, List.not_mem_nil, or_false] at hline
  intro hkey
  rw [if_pos hkey] at hline
  have hfirst : ∀ s : List UInt8, authorization <+: s → s.head? = some 65 := by
    rintro s ⟨rest, rfl⟩
    rfl
  rcases hline with (rfl | rfl | rfl | rfl | rfl | rfl | rfl) | hline
  · exact absurd (hfirst _ h) (by rw [List.append_assoc]; exact of_decide_eq_false rfl)
  · exact absurd (hfirst _ h) (of_decide_eq_false rfl)
  · exact absurd h (by decide)
  · exact absurd h (by decide)
  · exact absurd h (by decide)
  · exact absurd h (by decide)
  · exact absurd (hfirst _ h) (of_decide_eq_false rfl)
  · exact List.not_mem_nil hline

theorem setting_value {entries : List Entry} {name value v : List UInt8} {capacity : Nat}
    (h : setting entries name capacity = some v)
    (hvalue : getValue entries (normalizeKey name) 256 = some value) : v = value := by
  unfold setting at h
  rw [hvalue] at h
  dsimp only at h
  split at h
  next => cases h
  next => exact (Option.some.inj h).symm

/-- The provider of the settings, when ENV has one, is the one with a credential. -/
def OpenAi (env : Option (List Entry)) : Prop :=
  ∃ entries, env = some entries ∧ ∀ value,
    getValue entries (normalizeKey providerName) 256 = some value → value = [] ∨ value = openai

/-- The credential is for one provider, and for its host. -/
theorem Configured.confined {env : Option (List Entry)} {e : Endpoint} (h : Configured env e)
    (hkey : e.key ≠ []) : OpenAi env ∧ e.https = true ∧ e.host = apiHost ∧ e.port = 443 := by
  obtain ⟨entries, henv, ⟨hprovider, -, he⟩ | ⟨_, _, _, hempty, _⟩⟩ := h.provider
  · refine ⟨⟨entries, henv, fun value hvalue => ?_⟩, ?_⟩
    · rcases hprovider with hprovider | hprovider
      · exact Or.inl (setting_value hprovider hvalue).symm
      · exact Or.inr (setting_value hprovider hvalue).symm
    · rw [he]
      exact ⟨rfl, rfl, rfl⟩
  · exact absurd hempty hkey

end Z80Sbc.Chat.HeaderLines
