import Mathlib.Data.List.DropRight
import Z80Sbc.Http.Mailbox

/-! # URLs

The URL functions of `http_stream.c`, `load_target` of `http_io.c`, and the request that
`http_network.cpp` makes of a target. Whatever is accepted has the host and the port of its
authority, stays secure once it is, and leaves nothing of its text in a line of its own. -/

namespace Z80Sbc.Http

/-- `sizeof(url->host)` -/
def hostSize : Nat := 254
/-- `sizeof(url->authority)` -/
def authoritySize : Nat := 260

/-- `z80_http_url_t` -/
structure HttpUrl where
  https : Bool
  port : UInt16
  host : List UInt8
  authority : List UInt8
  path : List UInt8
  deriving DecidableEq

def httpScheme : List UInt8 := ascii ['h', 't', 't', 'p', ':', '/', '/']
def httpsScheme : List UInt8 := ascii ['h', 't', 't', 'p', 's', ':', '/', '/']

/-- `!strncasecmp(text, scheme, strlen(scheme))` -/
def hasScheme (scheme text : List UInt8) : Bool :=
  equalsIgnoreCase (text.take scheme.length) scheme

def absolute (text : List UInt8) : Bool := hasScheme httpScheme text || hasScheme httpsScheme text

/-- No blank, no control byte, and none of `#`, `\` and `@`. -/
def urlByte (c : UInt8) : Bool := 32 < c && c < 127 && c != 35 && c != 92 && c != 64

def hostByte (c : UInt8) : Bool :=
  (97 ≤ c && c ≤ 122) || (65 ≤ c && c ≤ 90) || (48 ≤ c && c ≤ 57) || c == 46 || c == 45

/-- The authority goes on. -/
def authorityByte (c : UInt8) : Bool := c != 47 && c != 63

/-- The loop over the digits of a port. -/
def parsePort (port : Nat) : List UInt8 → Option Nat
  | [] => some port
  | c :: digits =>
    if c < 48 ∨ 57 < c ∨ 6553 < port then none
    else
      let port := port * 10 + (c.toNat - 48)
      if 65535 < port then none else parsePort port digits

/-- The port of an authority: the one behind the first colon, or that of the scheme. -/
def authorityPort (https : Bool) (authority : List UInt8) : Option UInt16 :=
  match authority.dropWhile (· ≠ 58) with
  | [] => some (if https then 443 else 80)
  | _ :: digits =>
    if digits = [] then none
    else
      match parsePort 0 digits with
      | none => none
      | some port => if port = 0 then none else some (UInt16.ofNat port)

/-- The path of a text that has none begins with a slash. -/
def rootedPath (rest : List UInt8) : List UInt8 := if rest.head? = some 47 then rest else 47 :: rest

/-- `z80_http_url_parse` behind the scheme. -/
def parseBehind (https : Bool) (text : List UInt8) : Option HttpUrl :=
  if !text.all urlByte then none
  else
    let authority := text.takeWhile authorityByte
    let rest := text.dropWhile authorityByte
    if authority = [] ∨ authoritySize ≤ authority.length then none
    else
      let host := authority.takeWhile (· ≠ 58)
      if host = [] ∨ hostSize ≤ host.length then none
      else if !host.all hostByte then none
      else
        match authorityPort https authority with
        | none => none
        | some port =>
          let path := rootedPath rest
          if path.length < z80HttpUrlMax then some { https, port, host, authority, path } else none

/-- `z80_http_url_parse` -/
def urlParse (text : List UInt8) : Option HttpUrl :=
  if hasScheme httpsScheme text then parseBehind true (text.drop 8)
  else if hasScheme httpScheme text then parseBehind false (text.drop 7)
  else none

def HttpUrl.scheme (url : HttpUrl) : List UInt8 :=
  if url.https then ascii ['h', 't', 't', 'p', 's'] else ascii ['h', 't', 't', 'p']

/-- What a relative location keeps of the path: nothing, all up to the query, or the
directory. -/
def keptPath (path location : List UInt8) : List UInt8 :=
  let whole := path.takeWhile (· ≠ 63)
  if location.head? = some 47 then []
  else if location.head? ≠ some 63 then whole.rdropWhile (· ≠ 47)
  else whole

/-- The text that `z80_http_url_redirect` parses. -/
def redirectText (url : HttpUrl) (location : List UInt8) : List UInt8 :=
  if absolute location then location
  else if location.take 2 = [47, 47] then url.scheme ++ 58 :: location
  else url.scheme ++ [58, 47, 47] ++ url.authority ++ keptPath url.path location ++ location

/-- `z80_http_url_redirect` -/
def urlRedirect (url : HttpUrl) (location : List UInt8) : Option HttpUrl :=
  let text := redirectText url location
  if text = [] ∨ z80HttpUrlMax ≤ text.length then none
  else
    match urlParse text with
    | none => none
    | some target => if url.https && !target.https then none else some target

/-- What `load_target` finds in the environment: whether it can be read, and
`HTTP_BASE_URL`. -/
structure HttpEnv where
  ready : Bool
  base : Option (List UInt8)

/-- What a relative name keeps of the path of the base. -/
def keptBase (path name : List UInt8) : List UInt8 := if name.head? = some 47 then [] else path

def separator (front : List UInt8) : List UInt8 :=
  if front ≠ [] ∧ front.getLast? ≠ some 47 then [47] else []

/-- The last part of `load_target`: a relative name behind the path of the base. -/
def extendPath (target : HttpUrl) (name : List UInt8) : Target HttpUrl :=
  let front := keptBase target.path name
  let tail := separator front ++ name
  if tail ≠ [] ∧ tail.length < z80HttpUrlMax - front.length then
    .ok { target with path := front ++ tail }
  else .invalid

/-- `load_target` -/
def loadTarget (env : HttpEnv) (name : List UInt8) : Target HttpUrl :=
  if absolute name then
    match urlParse name with
    | some url => .ok url
    | none => .invalid
  else if !env.ready then .invalid
  else if env.base.getD [] = [] then .missingBaseUrl
  else
    match urlParse (env.base.getD []) with
    | none => .invalid
    | some target =>
      if target.path.contains 63 then .invalid
      else if !name.all fun c => urlByte c && c != 58 then .invalid
      else extendPath target name

/-- The file port with these functions. -/
def urlWeb : Web HttpUrl HttpEnv := ⟨loadTarget, urlRedirect⟩

/-- The text of the request, line by line. -/
def requestLines (url : HttpUrl) : List (List UInt8) :=
  [ascii ['G', 'E', 'T', ' '] ++ url.path ++ ascii " HTTP/1.1\r".toList,
    ascii "Host: ".toList ++ url.authority ++ [13],
    ascii "Accept: */*\r".toList,
    ascii "Accept-Encoding: identity\r".toList,
    ascii "Connection: close\r".toList,
    [13],
    []]

/-- What `start` of `http_network.cpp` prints. -/
def requestText (url : HttpUrl) : List UInt8 :=
  ascii "GET ".toList ++ url.path ++ ascii " HTTP/1.1\r\nHost: ".toList ++ url.authority ++
    ascii "\r\nAccept: */*\r\nAccept-Encoding: identity\r\nConnection: close\r\n\r\n".toList

/-! ## What is accepted -/

/-- The value of decimal digits. -/
def decimal (digits : List UInt8) : Nat := digits.foldl (fun n c => n * 10 + (c.toNat - 48)) 0

/-- The port that an authority names. -/
def NamesPort (https : Bool) (authority : List UInt8) (port : UInt16) : Prop :=
  match authority.dropWhile (· ≠ 58) with
  | [] => port = if https then 443 else 80
  | _ :: digits =>
    digits ≠ [] ∧ (∀ c ∈ digits, 48 ≤ c ∧ c ≤ 57) ∧ decimal digits = port.toNat ∧ port ≠ 0

/-- What holds of every accepted target. -/
structure HttpUrl.Valid (url : HttpUrl) : Prop where
  authority : ∀ c ∈ url.authority, urlByte c = true ∧ authorityByte c = true
  host : url.host = url.authority.takeWhile (· ≠ 58)
  named : url.host ≠ [] ∧ ∀ c ∈ url.host, hostByte c = true
  port : NamesPort url.https url.authority url.port
  path : ∀ c ∈ url.path, urlByte c = true
  rooted : url.path.head? = some 47
  fits : url.host.length < hostSize ∧ url.authority.length < authoritySize ∧
    url.path.length < z80HttpUrlMax

theorem parsePort_spec {port value : Nat} {digits : List UInt8} (h : parsePort port digits = some value)
    (hport : port ≤ 65535) : (∀ c ∈ digits, 48 ≤ c ∧ c ≤ 57) ∧
      digits.foldl (fun n c => n * 10 + (c.toNat - 48)) port = value ∧ value ≤ 65535 := by
  induction digits generalizing port with
  | nil =>
    cases h
    exact ⟨nofun, rfl, hport⟩
  | cons c digits ih =>
    rw [parsePort] at h
    split at h
    · cases h
    next hdigit =>
    rw [not_or, not_or, UInt8.not_lt, UInt8.not_lt] at hdigit
    dsimp only at h
    split at h
    · cases h
    next hle =>
    obtain ⟨hall, hvalue, hbound⟩ := ih h (Nat.le_of_not_lt hle)
    refine ⟨?_, hvalue, hbound⟩
    intro d hd
    rcases List.mem_cons.mp hd with rfl | hd
    · exact ⟨hdigit.1, hdigit.2.1⟩
    · exact hall d hd

theorem authorityPort_spec {https : Bool} {authority : List UInt8} {port : UInt16}
    (h : authorityPort https authority = some port) : NamesPort https authority port := by
  unfold authorityPort at h
  unfold NamesPort
  split at h
  · exact (Option.some.inj h).symm
  next digits heq =>
    split at h
    · cases h
    next hne =>
    split at h
    · cases h
    next value hvalue =>
    split at h
    · cases h
    next hzero =>
    obtain ⟨hall, hdecimal, hbound⟩ := parsePort_spec hvalue (Nat.zero_le _)
    cases h
    have hnat : (UInt16.ofNat value).toNat = value := by
      rw [UInt16.toNat_ofNat']
      exact Nat.mod_eq_of_lt (by omega)
    refine ⟨hne, hall, hdecimal.trans hnat.symm, fun hport => hzero ?_⟩
    rw [← hnat, hport]
    rfl

/-- The authority and the scheme determine host and port. -/
theorem HttpUrl.Valid.same {url target : HttpUrl} (h : url.Valid) (ht : target.Valid)
    (hauthority : target.authority = url.authority) (hhttps : target.https = url.https) :
    target.host = url.host ∧ target.port = url.port := by
  refine ⟨by rw [ht.host, h.host, hauthority], ?_⟩
  have hp := h.port
  have htp := ht.port
  unfold NamesPort at hp htp
  rw [hauthority, hhttps] at htp
  split at hp
  next heq =>
    rw [heq] at htp
    exact htp.trans hp.symm
  next digits heq =>
    rw [heq] at htp
    exact UInt16.toNat_inj.mp (htp.2.2.1.symm.trans hp.2.2.1)

theorem parseBehind_spec {https : Bool} {text : List UInt8} {url : HttpUrl}
    (h : parseBehind https text = some url) :
    url.Valid ∧ url.https = https ∧ url.authority = text.takeWhile authorityByte := by
  unfold parseBehind at h
  split at h
  · cases h
  next hbytes =>
  rw [Bool.not_eq_true', Bool.not_eq_false, List.all_eq_true] at hbytes
  dsimp only at h
  split at h
  · cases h
  next hauthority =>
  rw [not_or, Nat.not_le] at hauthority
  split at h
  · cases h
  next hhost =>
  rw [not_or, Nat.not_le] at hhost
  split at h
  · cases h
  next hname =>
  rw [Bool.not_eq_true', Bool.not_eq_false, List.all_eq_true] at hname
  split at h
  · cases h
  next port hport =>
  have hrest : ∀ c ∈ text.dropWhile authorityByte, urlByte c = true := fun c hc =>
    hbytes c ((List.dropWhile_sublist _).subset hc)
  split at h
  next hfits =>
    cases h
    refine ⟨⟨fun c hc => ⟨hbytes c ((List.takeWhile_sublist _).subset hc),
      List.mem_takeWhile_imp hc⟩, rfl, ⟨hhost.1, hname⟩, authorityPort_spec hport, ?_, ?_,
      hhost.2, hauthority.2, hfits⟩, rfl, rfl⟩
    · intro c hc
      change c ∈ rootedPath _ at hc
      unfold rootedPath at hc
      split at hc
      · exact hrest c hc
      · rcases List.mem_cons.mp hc with rfl | hc
        · decide
        · exact hrest c hc
    · show (rootedPath _).head? = some 47
      unfold rootedPath
      split
      next hslash => exact hslash
      · rfl
  · cases h

theorem urlParse_valid {text : List UInt8} {url : HttpUrl} (h : urlParse text = some url) :
    url.Valid := by
  unfold urlParse at h
  split at h
  · exact (parseBehind_spec h).1
  split at h
  · exact (parseBehind_spec h).1
  · cases h

theorem urlRedirect_valid {url target : HttpUrl} {location : List UInt8}
    (h : urlRedirect url location = some target) :
    target.Valid ∧ (url.https = true → target.https = true) := by
  unfold urlRedirect at h
  dsimp only at h
  split at h
  · cases h
  split at h
  · cases h
  next parsed hparsed =>
  split at h
  · cases h
  next hsecure =>
    cases h
    refine ⟨urlParse_valid hparsed, fun hhttps => ?_⟩
    rw [hhttps, Bool.true_and, Bool.not_eq_true', Bool.not_eq_false] at hsecure
    exact hsecure

/-! ## Relative names -/

theorem hasScheme_append {scheme rest : List UInt8} : hasScheme scheme (scheme ++ rest) = true := by
  unfold hasScheme equalsIgnoreCase
  rw [List.take_left]
  exact beq_self_eq_true _

/-- The text of a scheme, `://` and what follows is parsed behind that scheme. -/
theorem urlParse_scheme (url : HttpUrl) (text : List UInt8) :
    urlParse (url.scheme ++ [58, 47, 47] ++ text) = parseBehind url.https text := by
  unfold urlParse HttpUrl.scheme
  cases url.https with
  | true =>
    have hscheme : hasScheme httpsScheme
        (ascii ['h', 't', 't', 'p', 's'] ++ [58, 47, 47] ++ text) = true := hasScheme_append
    rw [if_pos rfl, if_pos hscheme]
    rfl
  | false =>
    have hsecure : hasScheme httpsScheme
        (ascii ['h', 't', 't', 'p'] ++ [58, 47, 47] ++ text) = false := by
      unfold hasScheme equalsIgnoreCase
      cases text with
      | nil => decide
      | cons c text =>
        refine beq_eq_false_iff_ne.mpr fun heq => ?_
        -- the fifth byte is the colon of the scheme
        have hfifth : (some 58 : Option UInt8) = some 115 := congrArg (fun l => l[4]?) heq
        exact absurd hfifth (by decide)
    have hscheme : hasScheme httpScheme
        (ascii ['h', 't', 't', 'p'] ++ [58, 47, 47] ++ text) = true := hasScheme_append
    rw [if_neg Bool.false_ne_true, hsecure, if_neg Bool.false_ne_true, if_pos hscheme]
    rfl

/-- A location without scheme and authority. -/
def Relative (location : List UInt8) : Prop :=
  absolute location = false ∧ location.take 2 ≠ [47, 47]

/-- What is kept of a path, and the location, begin a path. -/
theorem keptPath_rooted {path location : List UInt8} (h : path.head? = some 47) :
    ∃ c ∈ (keptPath path location ++ location).head?, authorityByte c = false := by
  obtain ⟨rest, rfl⟩ : ∃ rest, path = 47 :: rest := by
    cases path with
    | nil => cases h
    | cons c rest => exact ⟨rest, by rw [Option.some.inj h]⟩
  have hwhole : (47 :: rest).takeWhile (fun c => decide (c ≠ 63)) =
      47 :: rest.takeWhile (fun c => decide (c ≠ 63)) :=
    List.takeWhile_cons_of_pos (by decide)
  unfold keptPath
  dsimp only
  rw [hwhole]
  split
  next hslash => exact ⟨47, by rwa [List.nil_append], by decide⟩
  split
  · -- the slash at the front stays
    have hne : (47 :: rest.takeWhile (fun c => decide (c ≠ 63))).rdropWhile
        (fun c => decide (c ≠ 47)) ≠ [] := by
      intro hnil
      have hall := List.rdropWhile_eq_nil_iff.mp hnil 47 (List.mem_cons_self ..)
      exact absurd hall (by decide)
    obtain ⟨t, ht⟩ := List.rdropWhile_prefix (fun c => decide (c ≠ 47))
      (l := 47 :: rest.takeWhile (fun c => decide (c ≠ 63)))
    refine ⟨47, ?_, by decide⟩
    rw [List.head?_append_of_ne_nil _ hne]
    have hhead := congrArg List.head? ht
    rwa [List.head?_append_of_ne_nil _ hne] at hhead
  · exact ⟨47, rfl, by decide⟩

/-- A relative location changes nothing in front of the path. -/
theorem urlRedirect_relative {url target : HttpUrl} {location : List UInt8} (hurl : url.Valid)
    (hrelative : Relative location) (h : urlRedirect url location = some target) :
    target.https = url.https ∧ target.authority = url.authority ∧ target.host = url.host ∧
      target.port = url.port := by
  have htext : redirectText url location = url.scheme ++ [58, 47, 47] ++
      (url.authority ++ (keptPath url.path location ++ location)) := by
    unfold redirectText
    rw [hrelative.1, if_neg Bool.false_ne_true, if_neg hrelative.2]
    simp only [List.append_assoc]
  have hvalid := (urlRedirect_valid h).1
  unfold urlRedirect at h
  dsimp only at h
  rw [htext, urlParse_scheme] at h
  split at h
  · cases h
  split at h
  · cases h
  next parsed hparsed =>
  split at h
  · cases h
  cases h
  obtain ⟨-, hhttps, hauthority⟩ := parseBehind_spec hparsed
  have hsame : target.authority = url.authority := by
    obtain ⟨c, hc, hend⟩ := @keptPath_rooted _ location hurl.rooted
    rw [hauthority, List.takeWhile_append_of_pos fun c hc => (hurl.authority c hc).2]
    cases hrest : keptPath url.path location ++ location with
    | nil =>
      rw [hrest] at hc
      cases hc
    | cons d rest =>
      rw [hrest] at hc
      obtain rfl := Option.some.inj hc
      rw [List.takeWhile_cons_of_neg (by rw [hend]; exact Bool.false_ne_true), List.append_nil]
  obtain ⟨hhost, hport⟩ := hurl.same hvalid hsame hhttps
  exact ⟨hhttps, hsame, hhost, hport⟩

/-- A name that is loaded gives a valid target; a relative one that of the base with another
path. -/
theorem loadTarget_valid {env : HttpEnv} {name : List UInt8} {url : HttpUrl}
    (h : loadTarget env name = .ok url) : url.Valid ∧ (absolute name = false →
      ∃ base, urlParse (env.base.getD []) = some base ∧ url.https = base.https ∧
        url.authority = base.authority ∧ url.host = base.host ∧ url.port = base.port) := by
  unfold loadTarget at h
  split at h
  next habsolute =>
    split at h
    next parsed hparsed =>
      cases h
      refine ⟨urlParse_valid hparsed, fun hrelative => ?_⟩
      rw [habsolute] at hrelative
      cases hrelative
    · cases h
  split at h
  · cases h
  split at h
  · cases h
  split at h
  · cases h
  next base hbase =>
  split at h
  · cases h
  split at h
  · cases h
  next hname =>
  rw [Bool.not_eq_true', Bool.not_eq_false, List.all_eq_true] at hname
  have hvalid := urlParse_valid hbase
  unfold extendPath at h
  dsimp only at h
  split at h
  next hfits =>
    cases h
    refine ⟨⟨hvalid.authority, hvalid.host, hvalid.named, hvalid.port, ?_, ?_, hvalid.fits.1,
      hvalid.fits.2.1, ?_⟩, fun _ => ⟨base, hbase, rfl, rfl, rfl, rfl⟩⟩
    · intro c hc
      rcases List.mem_append.mp hc with hc | hc
      · unfold keptBase at hc
        split at hc
        · cases hc
        · exact hvalid.path c hc
      rcases List.mem_append.mp hc with hc | hc
      · unfold separator at hc
        split at hc
        · rw [List.mem_singleton.mp hc]
          decide
        · cases hc
      · have hbyte := hname c hc
        rw [Bool.and_eq_true] at hbyte
        exact hbyte.1
    · show (keptBase base.path name ++ (separator (keptBase base.path name) ++ name)).head? = _
      unfold keptBase
      split
      next hslash => exact hslash
      · have hne : base.path ≠ [] := by
          intro hnil
          have hrooted := hvalid.rooted
          rw [hnil] at hrooted
          cases hrooted
        rw [List.head?_append_of_ne_nil _ hne]
        exact hvalid.rooted
    · show (keptBase base.path name ++ (separator (keptBase base.path name) ++ name)).length < _
      rw [List.length_append]
      omega
  · cases h

/-! ## Requests -/

/-- No byte of an accepted text begins a line. -/
theorem urlByte_line {c : UInt8} (h : urlByte c = true) : c ≠ 10 ∧ c ≠ 13 := by
  refine ⟨?_, ?_⟩
  · rintro rfl
    exact absurd h (by decide)
  · rintro rfl
    exact absurd h (by decide)

theorem requestText_lines {url : HttpUrl} (h : url.Valid) :
    (requestText url).splitOn 10 = requestLines url ∧
      ∀ line ∈ requestLines url, 13 ∉ line.dropLast := by
  have hpath (c : UInt8) (hc : c = 10 ∨ c = 13) : c ∉ url.path := fun hmem => by
    obtain ⟨hlf, hcr⟩ := urlByte_line (h.path c hmem)
    rcases hc with rfl | rfl
    · exact hlf rfl
    · exact hcr rfl
  have hauthority (c : UInt8) (hc : c = 10 ∨ c = 13) : c ∉ url.authority := fun hmem => by
    obtain ⟨hlf, hcr⟩ := urlByte_line (h.authority c hmem).1
    rcases hc with rfl | rfl
    · exact hlf rfl
    · exact hcr rfl
  have hlines {P : List UInt8 → Prop} (hget : P (ascii ['G', 'E', 'T', ' '] ++ url.path ++
      ascii " HTTP/1.1\r".toList)) (hhost : P (ascii "Host: ".toList ++ url.authority ++ [13]))
      (haccept : P (ascii "Accept: */*\r".toList))
      (hencoding : P (ascii "Accept-Encoding: identity\r".toList))
      (hclose : P (ascii "Connection: close\r".toList)) (hcr : P [13]) (hnil : P []) :
      ∀ line ∈ requestLines url, P line := by
    intro line hline
    unfold requestLines at hline
    simp only [List.mem_cons, List.not_mem_nil, or_false] at hline
    rcases hline with rfl | rfl | rfl | rfl | rfl | rfl | rfl
    · exact hget
    · exact hhost
    · exact haccept
    · exact hencoding
    · exact hclose
    · exact hcr
    · exact hnil
  refine ⟨?_, hlines ?_ ?_ (by decide) (by decide) (by decide) (by decide) (by decide)⟩
  · have htext : requestText url = [10].intercalate (requestLines url) := by
      unfold requestText requestLines List.intercalate
      simp only [List.intersperse, List.flatten_cons, List.flatten_nil, List.append_assoc]
      rfl
    rw [htext, List.splitOn_intercalate]
    · refine hlines ?_ ?_ (by decide) (by decide) (by decide) (by decide) (by decide)
      · rw [List.mem_append, List.mem_append, not_or, not_or]
        exact ⟨⟨by decide, hpath 10 (Or.inl rfl)⟩, by decide⟩
      · rw [List.mem_append, List.mem_append, not_or, not_or]
        exact ⟨⟨by decide, hauthority 10 (Or.inl rfl)⟩, by decide⟩
    · exact List.cons_ne_nil _ _
  · rw [List.dropLast_append_of_ne_nil (by decide), List.mem_append, List.mem_append, not_or,
      not_or]
    exact ⟨⟨by decide, hpath 13 (Or.inr rfl)⟩, by decide⟩
  · rw [List.dropLast_append_of_ne_nil (by decide), List.mem_append, List.mem_append, not_or,
      not_or]
    exact ⟨⟨by decide, hauthority 13 (Or.inr rfl)⟩, by decide⟩

end Z80Sbc.Http
