import Z80Sbc.Weather.Inside
import Z80Sbc.Weather.Names

/-! # The documented members

A reply that is accepted is published from the documented members, where nothing that the scanner
takes for one of them comes before it. -/

namespace Z80Sbc.Weather.Extraction
open Z80Sbc.Data.JsonGrammar JsonScan Scanning

/-- The value of a documented member, which is the first that the scanner takes for it. -/
def Documented (lead : UInt8 → Prop) (range key value : List UInt8) : Prop :=
  ∃ behind, Lookup lead range key value behind

theorem documented_iff {lead : UInt8 → Prop} {v : Value} {range key value : List UInt8}
    (hkey : Word key) (h : Holds v range) :
    Documented lead range key value ↔ ∃ before behind, MemberAt range before key value behind ∧
      (∃ x, value.head? = some x ∧ lead x) ∧
      ∀ p, p.length < before.length → ¬NamedAt lead key range p := by
  rw [exists_comm]
  exact exists_congr fun behind => lookup_iff hkey h

/-- The values of the conditions in an object. -/
structure Conditions (item : List UInt8) where
  main : List UInt8
  weather : List UInt8
  first : List UInt8
  condition : List UInt8
  description : List UInt8
  temp : List UInt8
  feelsLike : List UInt8
  isMain : Documented (· = 123) item (text "main") main
  isWeather : Documented (· = 91) item (text "weather") weather
  isFirst : ∃ rest, FirstElement weather first rest
  isCondition : Documented anyLead first (text "main") condition
  isDescription : Documented anyLead first (text "description") description
  isTemp : Documented anyLead main (text "temp") temp
  isFeelsLike : Documented anyLead main (text "feels_like") feelsLike

/-- The values of the present weather. -/
structure Current (body : List UInt8) extends Conditions body where
  name : List UInt8
  humidity : List UInt8
  wind : List UInt8
  speed : List UInt8
  isName : Documented anyLead body (text "name") name
  isHumidity : Documented anyLead main (text "humidity") humidity
  isWind : Documented (· = 123) body (text "wind") wind
  isSpeed : Documented anyLead wind (text "speed") speed

/-- The values of the forecast; the object is the first of the list. -/
structure Forecast (item : List UInt8) extends Conditions item where
  time : List UInt8
  isTime : Documented anyLead item (text "dt_txt") time

/-- What is stored of a string. -/
def StringIn (value stored : List UInt8) : Prop :=
  ∃ t, StringOf value t ∧ stored = t.take (FIELD_BYTES - 1)

structure ConditionsIn (floats : Floats) {item : List UInt8} (r : Conditions item)
    (base temp feelsLike : Nat) (output : Fields) : Prop where
  condition : StringIn r.condition (output base)
  description : ∃ stored, StringIn r.description stored ∧ output (base + 1) = capitalize stored
  temp : output temp = numberText floats r.temp
  feelsLike : output feelsLike = numberText floats r.feelsLike

structure CurrentIn (floats : Floats) {body : List UInt8} (r : Current body)
    (pending output : Fields) : Prop where
  conditions : ConditionsIn floats r.toConditions 1 3 13 output
  name : StringIn r.name (output 0)
  humidity : output 4 = numberText floats r.humidity
  speed : output 5 = numberText floats r.speed
  others : ∀ k, k ∉ [0, 1, 2, 3, 4, 5, 13] → output k = pending k

structure ForecastIn (floats : Floats) {item : List UInt8} (r : Forecast item)
    (pending output : Fields) : Prop where
  conditions : ConditionsIn floats r.toConditions 6 8 14 output
  time : StringIn r.time (output 9)
  others : ∀ k, k ∉ [6, 7, 8, 9, 14] → output k = pending k

/-! ## One lookup after the other -/

theorem short_names : Short (text "main") ∧ Short (text "weather") ∧ Short (text "description") ∧
    Short (text "temp") ∧ Short (text "feels_like") ∧ Short (text "humidity") ∧
    Short (text "wind") ∧ Short (text "speed") ∧ Short (text "name") ∧ Short (text "dt_txt") ∧
    Short (text "cod") ∧ Short (text "list") := by
  refine ⟨?_, ?_, ?_, ?_, ?_, ?_, ?_, ?_, ?_, ?_, ?_, ?_⟩ <;>
    exact ⟨by unfold Plain; decide +kernel, by decide +kernel⟩

theorem store_taken {k : Nat} {found : List UInt8 × Bool} {next : Fields → Fields × Bool}
    {output : Fields} (h : (store k found next output).2 = true) :
    found.2 = true ∧ store k found next output = next (output.put k found.1) := by
  unfold store at h ⊢
  by_cases hfound : found.2 = true
  · rw [if_pos hfound]
    exact ⟨hfound, rfl⟩
  · rw [if_neg hfound] at h
    cases h

theorem string_taken {range key value : List UInt8} (hkey : Short key) (hzero : ∀ x ∈ range, x ≠ 0)
    (h : Documented anyLead range key value)
    (htaken : (getString range key FIELD_BYTES).2 = true) :
    StringIn value (getString range key FIELD_BYTES).1 := by
  obtain ⟨behind, hlookup⟩ := h
  exact getString_lookup hkey hzero hlookup htaken

theorem number_taken {floats : Floats} (hstops : Stops floats) {range memory key value : List UInt8}
    (hkey : Short key) (hzero : ∀ x ∈ range, x ≠ 0) (h : Documented anyLead range key value)
    (htaken : (getNumber floats range memory key FIELD_BYTES).2 = true) :
    (getNumber floats range memory key FIELD_BYTES).1 = numberText floats value := by
  obtain ⟨behind, hlookup⟩ := h
  exact getNumber_lookup hstops hkey hzero hlookup htaken

theorem Lookup.value_mem {lead : UInt8 → Prop} {range key value behind : List UInt8}
    (h : Lookup lead range key value behind) {x : UInt8} (hx : x ∈ value) : x ∈ range := by
  obtain ⟨before, hat, -⟩ := h
  cases hat with
  | mk _ _ _ _ _ => simp [hx]

theorem object_taken {range memory key value : List UInt8} (hkey : Short key)
    (hzero : ∀ x ∈ range, x ≠ 0) (h : Documented (· = 123) range key value) :
    (∃ behind, object ⟨range, memory⟩ key = some ⟨value, behind⟩) ∧ ∀ x ∈ value, x ≠ 0 := by
  obtain ⟨behind, hlookup⟩ := h
  exact ⟨⟨_, object_lookup hkey hzero hlookup⟩, fun x hx => hzero x (Lookup.value_mem hlookup hx)⟩

theorem array_taken {range memory key value first : List UInt8} (hkey : Short key)
    (hzero : ∀ x ∈ range, x ≠ 0) (h : Documented (· = 91) range key value)
    (hfirst : ∃ rest, FirstElement value first rest) :
    (∃ behind, firstArrayObject ⟨range, memory⟩ key = some ⟨first, behind⟩) ∧
      ∀ x ∈ first, x ≠ 0 := by
  obtain ⟨behind, hlookup⟩ := h
  obtain ⟨rest, hrest⟩ := hfirst
  refine ⟨⟨_, firstArrayObject_lookup hkey hzero hlookup hrest⟩, fun x hx => ?_⟩
  obtain ⟨a, v, rfl, -⟩ := hrest
  exact hzero x (Lookup.value_mem hlookup (by simp [hx]))

@[simp] theorem put_same (f : Fields) (k : Nat) (value : List UInt8) : f.put k value k = value :=
  if_pos rfl

@[simp] theorem put_other {f : Fields} {j k : Nat} (h : j ≠ k) (value : List UInt8) :
    f.put k value j = f j := if_neg h

theorem current_taken {floats : Floats} (hstops : Stops floats) {body memory : List UInt8}
    (hzero : ∀ x ∈ body, x ≠ 0) (r : Current body) {pending : Fields}
    (htaken : (parseConditions floats ⟨body, memory⟩ pending false).2 = true) :
    CurrentIn floats r pending (parseConditions floats ⟨body, memory⟩ pending false).1 := by
  obtain ⟨hkMain, hkWeather, hkDescription, hkTemp, hkFeels, hkHumidity, hkWind, hkSpeed, hkName,
    -⟩ := short_names
  obtain ⟨⟨behindMain, hmain⟩, hzMain⟩ := @object_taken body memory _ _ hkMain hzero r.isMain
  obtain ⟨⟨behindFirst, hweather⟩, hzFirst⟩ :=
    @array_taken body memory _ _ _ hkWeather hzero r.isWeather r.isFirst
  obtain ⟨⟨behindWind, hwind⟩, hzWind⟩ := @object_taken body memory _ _ hkWind hzero r.isWind
  unfold parseConditions at htaken ⊢
  rw [hmain, hweather] at htaken ⊢
  dsimp only at htaken ⊢
  rw [if_neg Bool.false_ne_true] at htaken ⊢
  obtain ⟨hcondition, heq⟩ := store_taken htaken
  rw [heq] at htaken ⊢
  obtain ⟨hdescription, heq⟩ := store_taken htaken
  rw [heq] at htaken ⊢
  obtain ⟨htemp, heq⟩ := store_taken htaken
  rw [heq] at htaken ⊢
  obtain ⟨hfeels, heq⟩ := store_taken htaken
  rw [heq] at htaken ⊢
  rw [if_neg Bool.false_ne_true] at htaken ⊢
  obtain ⟨hname, heq⟩ := store_taken htaken
  rw [heq] at htaken ⊢
  obtain ⟨hhumidity, heq⟩ := store_taken htaken
  rw [heq] at htaken ⊢
  rw [hwind] at htaken ⊢
  dsimp only at htaken ⊢
  obtain ⟨hspeed, heq⟩ := store_taken htaken
  rw [heq]
  have hstored := string_taken hkDescription hzFirst r.isDescription hdescription
  refine ⟨⟨?_, ⟨_, hstored, ?_⟩, ?_, ?_⟩, ?_, ?_, ?_, ?_⟩
  · simpa using string_taken hkMain hzFirst r.isCondition hcondition
  · simp
  · simpa using number_taken hstops hkTemp hzMain r.isTemp htemp
  · simpa using number_taken hstops hkFeels hzMain r.isFeelsLike hfeels
  · simpa using string_taken hkName hzero r.isName hname
  · simpa using number_taken hstops hkHumidity hzMain r.isHumidity hhumidity
  · simpa using number_taken hstops hkSpeed hzWind r.isSpeed hspeed
  · intro k hk
    simp only [List.mem_cons, List.not_mem_nil, or_false, not_or] at hk
    obtain ⟨h0, h1, h2, h3, h4, h5, h13⟩ := hk
    simp [h0, h1, h2, h3, h4, h5, h13]

theorem forecast_taken {floats : Floats} (hstops : Stops floats) {item memory : List UInt8}
    (hzero : ∀ x ∈ item, x ≠ 0) (r : Forecast item) {pending : Fields}
    (htaken : (parseConditions floats ⟨item, memory⟩ pending true).2 = true) :
    ForecastIn floats r pending (parseConditions floats ⟨item, memory⟩ pending true).1 := by
  obtain ⟨hkMain, hkWeather, hkDescription, hkTemp, hkFeels, -, -, -, -, hkTime, -⟩ := short_names
  obtain ⟨⟨behindMain, hmain⟩, hzMain⟩ := @object_taken item memory _ _ hkMain hzero r.isMain
  obtain ⟨⟨behindFirst, hweather⟩, hzFirst⟩ :=
    @array_taken item memory _ _ _ hkWeather hzero r.isWeather r.isFirst
  unfold parseConditions at htaken ⊢
  rw [hmain, hweather] at htaken ⊢
  dsimp only at htaken ⊢
  rw [if_pos rfl] at htaken ⊢
  obtain ⟨hcondition, heq⟩ := store_taken htaken
  rw [heq] at htaken ⊢
  obtain ⟨hdescription, heq⟩ := store_taken htaken
  rw [heq] at htaken ⊢
  rw [if_pos rfl] at htaken ⊢
  obtain ⟨htemp, heq⟩ := store_taken htaken
  rw [heq] at htaken ⊢
  rw [if_pos rfl] at htaken ⊢
  obtain ⟨hfeels, heq⟩ := store_taken htaken
  rw [heq] at htaken ⊢
  rw [if_pos rfl] at htaken ⊢
  obtain ⟨htime, heq⟩ := store_taken htaken
  rw [heq]
  have hstored := string_taken hkDescription hzFirst r.isDescription hdescription
  refine ⟨⟨?_, ⟨_, hstored, ?_⟩, ?_, ?_⟩, ?_, ?_⟩
  · simpa using string_taken hkMain hzFirst r.isCondition hcondition
  · simp
  · simpa using number_taken hstops hkTemp hzMain r.isTemp htemp
  · simpa using number_taken hstops hkFeels hzMain r.isFeelsLike hfeels
  · simpa using string_taken hkTime hzero r.isTime htime
  · intro k hk
    simp only [List.mem_cons, List.not_mem_nil, or_false, not_or] at hk
    obtain ⟨h6, h7, h8, h9, h14⟩ := hk
    simp [h6, h7, h8, h9, h14]

/-! ## Replies -/

/-- `z80_weather_result` for a body that it scans, with the memory behind it. -/
def parseBody (floats : Floats) (body memory : List UInt8) (forecast : Bool) (pending : Fields) :
    List UInt8 × Fields :=
  let trimmed := ((skipWs body).reverse.dropWhile isSpace).reverse
  if trimmed.head? = some 123 ∧ trimmed.getLast? = some 125 ∧
      getInt body memory (text "cod") = some 200 then
    let parsed :=
      if forecast then
        (firstArrayObject ⟨body, memory⟩ (text "list")).elim (pending, false) fun item =>
          parseConditions floats item pending true
      else parseConditions floats ⟨body, memory⟩ pending false
    (if parsed.2 then [] else text "Invalid weather JSON fields", parsed.1)
  else (text "Invalid weather JSON fields", pending)

theorem closed_body {body : List UInt8}
    (h : ((skipWs body).reverse.dropWhile isSpace).reverse.getLast? = some 125) : Closed body := by
  obtain ⟨q, hq⟩ := List.getLast?_eq_some_iff.mp h
  obtain ⟨a, hbody, -⟩ := skipWs_split body
  have hsplit : skipWs body = q ++ 125 :: ((skipWs body).reverse.takeWhile isSpace).reverse := by
    have hreverse := congrArg List.reverse
      (List.takeWhile_append_dropWhile (p := isSpace) (l := (skipWs body).reverse))
    rw [List.reverse_append, List.reverse_reverse, hq, List.append_assoc] at hreverse
    exact hreverse.symm
  refine ⟨a ++ q, _, by rw [List.append_assoc, ← hsplit, ← hbody], fun x hx => ?_⟩
  exact List.all_eq_true.mp List.all_takeWhile x (List.mem_reverse.mp hx)

/-- Nothing behind the body is read. -/
theorem parseBody_inside {floats : Floats} (hstops : Stops floats) (body m m' : List UInt8)
    (forecast : Bool) (pending : Fields) :
    parseBody floats body m forecast pending = parseBody floats body m' forecast pending := by
  unfold parseBody
  dsimp only
  by_cases hlast : ((skipWs body).reverse.dropWhile isSpace).reverse.getLast? = some 125
  swap
  · rw [if_neg (fun h => hlast h.2.1), if_neg (fun h => hlast h.2.1)]
  rw [getInt_inside m m' (closed_body hlast), parseConditions_inside hstops body m m']
  rcases firstArrayObject_inside body (text "list") m m' with ⟨h, h'⟩ | ⟨item, b, b', h, h', -⟩
  · rw [h, h']
  · rw [h, h', Option.elim_some, Option.elim_some, parseConditions_inside hstops item b b']

/-- What is left of a reply that is accepted. -/
theorem parseReply_accepted {floats : Floats} {reply : Reply} {body : List UInt8} {forecast : Bool}
    {pending : Fields} (hbody : reply.body = some body)
    (h : (parseReply floats reply forecast pending).1 = []) :
    (∀ x ∈ body, x ≠ 0) ∧ (parseBody floats body [0] forecast pending).1 = [] ∧
      (parseReply floats reply forecast pending).2 =
        (parseBody floats body [0] forecast pending).2 := by
  have hinvalid : text "Invalid weather response" ≠ [] := by decide
  have hfields : text "Invalid weather JSON fields" ≠ [] := by decide
  unfold parseReply at h ⊢
  cases herror : reply.error with
  | some error =>
    rw [herror] at h
    obtain ⟨message, hmessage⟩ := error
    cases message with
    | nil => exact absurd rfl hmessage
    | cons x message => cases h
  | none =>
  rw [herror] at h
  dsimp only at h ⊢
  by_cases hstatus : reply.httpStatus ≠ 200
  · rw [if_pos hstatus] at h
    exact absurd (List.append_eq_nil_iff.mp h).1 (by decide)
  rw [if_neg hstatus, hbody] at h ⊢
  dsimp only at h ⊢
  by_cases hscan : body.length = 0 ∨ Z80_WEATHER_BODY_MAX < body.length ∨ body.contains 0
  · rw [if_pos hscan] at h
    exact absurd h hinvalid
  rw [if_neg hscan] at h ⊢
  have hzero : ∀ x ∈ body, x ≠ 0 := by
    rintro x hx rfl
    exact hscan (Or.inr (Or.inr (List.contains_iff_mem.mpr hx)))
  refine ⟨hzero, ?_⟩
  unfold parseBody
  dsimp only
  by_cases hroot : ((skipWs body).reverse.dropWhile isSpace).reverse.head? = some 123 ∧
      ((skipWs body).reverse.dropWhile isSpace).reverse.getLast? = some 125 ∧
      getInt body [0] (text "cod") = some 200
  swap
  · rw [if_neg hroot] at h
    exact absurd h hfields
  rw [if_pos hroot] at h ⊢
  rw [if_pos hroot]
  cases forecast with
  | false => exact ⟨h, rfl⟩
  | true =>
    cases hlist : firstArrayObject ⟨body, [0]⟩ (text "list") with
    | none =>
      rw [hlist] at h
      exact ⟨h, rfl⟩
    | some item =>
      rw [hlist] at h
      exact ⟨h, rfl⟩

/-- A body that is accepted has passed its checks and given all its members. -/
theorem parseBody_taken {floats : Floats} {body memory : List UInt8} {forecast : Bool}
    {pending : Fields} (h : (parseBody floats body memory forecast pending).1 = []) :
    getInt body memory (text "cod") = some 200 ∧
      ∃ o : Object, (if forecast then firstArrayObject ⟨body, memory⟩ (text "list") = some o
          else o = ⟨body, memory⟩) ∧
        (parseConditions floats o pending forecast).2 = true ∧
        (parseBody floats body memory forecast pending).2 =
          (parseConditions floats o pending forecast).1 := by
  have hfields : text "Invalid weather JSON fields" ≠ [] := by decide
  unfold parseBody at h ⊢
  dsimp only at h ⊢
  split at h
  swap
  · exact absurd h hfields
  next hroot =>
  refine ⟨hroot.2.2, ?_⟩
  rw [if_pos hroot]
  dsimp only at h ⊢
  have htaken {parsed : Fields × Bool}
      (h : (if parsed.2 = true then [] else text "Invalid weather JSON fields") = []) :
      parsed.2 = true := by
    by_contra hno
    rw [if_neg hno] at h
    exact hfields h
  have hparsed := htaken h
  cases forecast with
  | false =>
    rw [if_neg Bool.false_ne_true] at hparsed ⊢
    exact ⟨_, rfl, hparsed, rfl⟩
  | true =>
    rw [if_pos rfl] at hparsed ⊢
    cases hlist : firstArrayObject ⟨body, memory⟩ (text "list") with
    | none =>
      rw [hlist] at hparsed
      cases hparsed
    | some item =>
      rw [hlist] at hparsed
      exact ⟨item, rfl, hparsed, rfl⟩

/-! ## Bodies that are written out -/

/-- A member as it is written: its name, its value and the text of the value. -/
structure Entry where
  name : List UInt8
  value : Value
  written : List UInt8

def quoted (s : List UInt8) : List UInt8 := 34 :: s ++ [34]

/-- Bytes that a string may hold as they are. -/
def Literal (s : List UInt8) : Prop := ∀ x ∈ s, 32 ≤ x.toNat ∧ x.toNat < 128 ∧ Ordinary x

instance (x : UInt8) : Decidable (Ordinary x) := inferInstanceAs (Decidable (_ ∧ _ ∧ _))

instance (s : List UInt8) : Decidable (Literal s) := List.decidableBAll _ s

structure Entry.Good (e : Entry) : Prop where
  name : Literal e.name
  value : Derives (.value e.value) e.written

def Entry.text (e : Entry) : List UInt8 := quoted e.name ++ 58 :: e.written

def Entry.member (e : Entry) : List Nat × Value := (e.name.map UInt8.toNat, e.value)

def joined : List Entry → List UInt8
  | [] => []
  | e :: es => e.text ++ (if es = [] then [] else 44 :: joined es)

theorem literal_characters {s w : List UInt8} {cps : List Nat} (h : Literal s)
    (hw : Characters cps w) : Characters (s.map UInt8.toNat ++ cps) (s ++ w) := by
  induction s with
  | nil => exact hw
  | cons x s ih =>
    obtain ⟨hlow, hhigh, -, hquote, hbackslash⟩ := h x (List.mem_cons_self ..)
    have hutf8 : utf8 x.toNat = [x] := by
      rw [utf8, if_pos hhigh, UInt8.ofNat_toNat]
    have hcharacter : Character x.toNat [x] := by
      rw [← hutf8]
      refine .unescaped hlow (fun hno => hquote ?_) (fun hno => hbackslash ?_) (Or.inl (by omega))
      · exact UInt8.toNat.inj hno
      · exact UInt8.toNat.inj hno
    have hrest := ih fun y hy => h y (List.mem_cons_of_mem _ hy)
    rw [List.map_cons, List.cons_append, ← List.singleton_append (x := x), List.append_assoc]
    exact .cons hcharacter hrest

theorem quoted_derives {s : List UInt8} (h : Literal s) :
    StringText (s.map UInt8.toNat) (quoted s) := by
  have hcharacters := literal_characters h .nil
  rw [List.append_nil, List.append_nil] at hcharacters
  exact .quoted hcharacters

theorem joined_derives {es : List Entry} (hne : es ≠ []) (hgood : ∀ e ∈ es, e.Good) :
    Derives (.members (es.map Entry.member)) (joined es) := by
  induction es with
  | nil => exact absurd rfl hne
  | cons e es ih =>
    obtain ⟨hname, hvalue⟩ := hgood e (List.mem_cons_self ..)
    cases es with
    | nil =>
      have hlast := Derives.lastMember blank_nil (quoted_derives hname) blank_nil blank_nil hvalue
        blank_nil
      simpa only [joined, Entry.text, Entry.member, List.map_cons, List.map_nil, if_pos,
        List.append_nil, List.nil_append] using hlast
    | cons e' es =>
      have hrest := ih (List.cons_ne_nil _ _) fun d hd => hgood d (List.mem_cons_of_mem _ hd)
      have hmember := Derives.member blank_nil (quoted_derives hname) blank_nil blank_nil hvalue
        blank_nil hrest
      rw [joined, if_neg (List.cons_ne_nil _ _), Entry.text, List.append_assoc, List.cons_append]
      exact hmember

/-- An object as a member. -/
def objectEntry (name : List UInt8) (es : List Entry) : Entry :=
  ⟨name, .object (es.map Entry.member), 123 :: joined es ++ [125]⟩

def stringEntry (name s : List UInt8) : Entry := ⟨name, .string (s.map UInt8.toNat), quoted s⟩

theorem objectEntry_good {name : List UInt8} {es : List Entry} (hname : Literal name)
    (hne : es ≠ []) (hgood : ∀ e ∈ es, e.Good) : (objectEntry name es).Good :=
  ⟨hname, .object (joined_derives hne hgood)⟩

theorem stringEntry_good {name s : List UInt8} (hname : Literal name) (hs : Literal s) :
    (stringEntry name s).Good := ⟨hname, .string (quoted_derives hs)⟩

/-- What stands before a member: the others with their commas. -/
def prior (es : List Entry) : List UInt8 := es.flatMap fun e => e.text ++ [44]

theorem prior_before {es : List Entry} (hgood : ∀ e ∈ es, e.Good) :
    ∀ {p : List UInt8}, Before p → Before (p ++ prior es) := by
  induction es with
  | nil =>
    intro p hp
    rw [prior, List.flatMap_nil, List.append_nil]
    exact hp
  | cons e es ih =>
    intro p hp
    obtain ⟨hname, hvalue⟩ := hgood e (List.mem_cons_self ..)
    have hnext :=
      Before.next hp (quoted_derives hname) blank_nil blank_nil hvalue blank_nil blank_nil
    have hbefore := ih (fun d hd => hgood d (List.mem_cons_of_mem _ hd)) hnext
    simpa only [prior, List.flatMap_cons, Entry.text, List.append_assoc, List.cons_append,
      List.nil_append] using hbefore

/-- What stands behind a member. -/
def behindOf (es : List Entry) : List UInt8 := (if es = [] then [] else 44 :: joined es) ++ [125]

theorem joined_split (es : List Entry) (e : Entry) (es' : List Entry) :
    joined (es ++ e :: es') ++ [125] = prior es ++ (e.text ++ behindOf es') := by
  induction es with
  | nil => rw [List.nil_append, joined, List.append_assoc]; rfl
  | cons d es ih =>
    have hne : es ++ e :: es' ≠ [] := List.append_ne_nil_of_right_ne_nil _ (List.cons_ne_nil _ _)
    rw [List.cons_append, joined, if_neg hne, List.append_assoc, List.cons_append, ih, prior,
      prior, List.flatMap_cons, List.append_assoc, List.append_assoc, List.singleton_append]

theorem memberAt_joined {es : List Entry} {e : Entry} {es' : List Entry}
    (hgood : ∀ d ∈ es ++ e :: es', d.Good) :
    MemberAt (123 :: joined (es ++ e :: es') ++ [125]) (123 :: prior es) e.name e.written
      (behindOf es') := by
  have hprior := prior_before (fun d hd => hgood d (List.mem_append_left _ hd))
    (Before.first blank_nil blank_nil)
  have hbehind : Behind (behindOf es') := by
    unfold behindOf
    by_cases hes : es' = []
    · rw [if_pos hes]
      exact .brace blank_nil
    · rw [if_neg hes]
      exact .comma blank_nil
  have hat := MemberAt.mk (n := e.name) hprior blank_nil blank_nil
    (hgood e (List.mem_append_right _ (List.mem_cons_self ..))).value hbehind
  rw [List.cons_append, joined_split, Entry.text, quoted]
  simpa only [List.append_assoc, List.cons_append, List.nil_append] using hat

/-- Whether a text is taken for a member of this name. -/
def tags (test : UInt8 → Bool) (key w : List UInt8) : Bool :=
  let behind := skipWs (w.drop (key.length + 2))
  w.take (key.length + 2) == quoted key && behind.head? == some 58 &&
    (skipWs (behind.drop 1)).head?.any test

theorem tags_of_tagged {lead : UInt8 → Prop} {test : UInt8 → Bool} {key w : List UInt8}
    (hlead : ∀ x, lead x → test x = true) (h : Tagged lead key w) : tags test key w = true := by
  obtain ⟨b, c, x, rest, rfl, hb, hc, hx, hl⟩ := h
  have hsplit : tagged key b c (x :: rest) = quoted key ++ (b ++ 58 :: (c ++ x :: rest)) := by
    simp only [tagged, quoted, List.cons_append, List.append_assoc, List.nil_append]
  have hlength : (quoted key).length = key.length + 2 := by
    simp only [quoted, List.length_append, List.length_cons, List.length_nil]
  unfold tags
  dsimp only
  rw [hsplit, List.take_left' hlength, List.drop_left' hlength, skipWs_blank hb,
    skipWs_cons (by decide), List.head?_cons, List.drop_one, List.tail_cons, skipWs_blank hc,
    skipWs_cons hx, List.head?_cons]
  simp [hlead x hl]

theorem documented_joined {lead : UInt8 → Prop} {test : UInt8 → Bool} {es : List Entry} {e : Entry}
    {es' : List Entry} (hgood : ∀ d ∈ es ++ e :: es', d.Good) (hlead : ∀ x, lead x → test x = true)
    (hhead : ∃ x, e.written.head? = some x ∧ lead x)
    (hclear : ∀ k < (123 :: prior es).length,
      tags test e.name ((123 :: joined (es ++ e :: es') ++ [125]).drop k) = false) :
    Documented lead (123 :: joined (es ++ e :: es') ++ [125]) e.name e.written := by
  refine ⟨_, _, memberAt_joined hgood, hhead, fun p w heq hlt htagged => ?_⟩
  have hno := hclear p.length hlt
  rw [heq, List.drop_left' rfl, tags_of_tagged hlead htagged] at hno
  cases hno

/-- Names are not repeated in any object. -/
inductive Distinct : Value → Prop where
  | plain : Distinct .plain
  | string {cps : List Nat} : Distinct (.string cps)
  | array {vs : List Value} (all : ∀ v ∈ vs, Distinct v) : Distinct (.array vs)
  | object {ms : List (List Nat × Value)} (nodup : (ms.map Prod.fst).Nodup)
      (all : ∀ m ∈ ms, Distinct m.2) : Distinct (.object ms)

theorem distinct_entries {es : List Entry} (hnodup : ((es.map Entry.member).map Prod.fst).Nodup)
    (h : ∀ e ∈ es, Distinct e.value) : Distinct (.object (es.map Entry.member)) := by
  refine .object hnodup fun m hm => ?_
  obtain ⟨e, he, rfl⟩ := List.mem_map.mp hm
  exact h e he

/-- A parser of integers in the place of `strtod`. -/
def integers : Floats :=
  { Double := Int
    strtod := fun w => ((strtol w).1, (strtol w).2, false)
    isfinite := fun _ => true
    within := fun min max x => decide (min ≤ x ∧ x ≤ max)
    fitsInt := fitsInt
    round := fun x => x }

theorem integers_stops : Stops integers := by
  refine ⟨fun hvalue hends => ?_, fun w rest => ?_⟩
  · obtain ⟨z, w, rfl, hz⟩ := hvalue.printable
    show ((strtol _).1, (strtol _).2, false) = _
    rw [strtol_stop hz (ends_toNat hends)]
    rfl
  · show ((strtol _).1, (strtol _).2, false) = _
    rw [strtol_brace w rest []]
    rfl

theorem digits_number {x : UInt8} {w : List UInt8} (hx : x ≠ 48) (hdigits : Digits (x :: w)) :
    Number (x :: w) := by
  have hnumber := Number.positive (.digits hx hdigits) .none .none
  rwa [List.append_nil, List.append_nil] at hnumber

def one (name : List UInt8) : Entry := ⟨name, .plain, [49]⟩

/-- An array of one value as a member. -/
def arrayEntry (name : List UInt8) (e : Entry) : Entry :=
  ⟨name, .array [e.value], 91 :: e.written ++ [93]⟩

theorem one_good {name : List UInt8} (h : Literal name) : (one name).Good :=
  ⟨h, .number (digits_number (by decide) ⟨List.cons_ne_nil _ _, by decide +kernel⟩)⟩

theorem arrayEntry_good {name : List UInt8} {e : Entry} (hname : Literal name) (he : e.Good) :
    (arrayEntry name e).Good := by
  have hderives := Derives.array (.lastElement blank_nil he.value blank_nil)
  rw [List.nil_append, List.append_nil] at hderives
  exact ⟨hname, hderives⟩

def mainEntries : List Entry :=
  [one (text "temp"), one (text "feels_like"), one (text "pressure"), one (text "humidity")]

def firstEntries : List Entry :=
  [one (text "id"), stringEntry (text "main") (text "c"), stringEntry (text "description") (text "d")]

def windEntries : List Entry := [one (text "speed"), one (text "deg")]

def firstValue : Entry := objectEntry [] firstEntries

/-- A string that holds what a name looks like. -/
def noteEntry : Entry :=
  ⟨text "note", .string (34 :: ((text "name").map UInt8.toNat ++ 34 :: (text ":1").map UInt8.toNat)),
    34 :: (92 :: 34 :: (text "name" ++ 92 :: 34 :: text ":1")) ++ [34]⟩

def coordEntry : Entry := objectEntry (text "coord") [one (text "lon"), one (text "lat")]
def nameEntry : Entry := stringEntry (text "name") (text "b")
def codEntry : Entry := ⟨text "cod", .plain, [50, 48, 48]⟩
def mainEntry : Entry := objectEntry (text "main") mainEntries
def weatherEntry : Entry := arrayEntry (text "weather") firstValue
def windEntry : Entry := objectEntry (text "wind") windEntries

/-- The conditions as the service may send them, with other members, behind more of them. -/
def sampleEntries (first : List Entry) : List Entry :=
  first ++ [noteEntry, coordEntry, weatherEntry, mainEntry, windEntry, nameEntry, codEntry]

def sampleBody (first : List Entry) : List UInt8 := 123 :: joined (sampleEntries first) ++ [125]

def itemEntries : List Entry :=
  [one (text "dt"), mainEntry, weatherEntry, windEntry, stringEntry (text "dt_txt") (text "t")]

def itemValue : Entry := objectEntry [] itemEntries

def listEntry : Entry := arrayEntry (text "list") itemValue
def cityEntry : Entry := objectEntry (text "city") [nameEntry]
def codText : Entry := stringEntry (text "cod") (text "200")

def forecastEntries : List Entry := [codText, one (text "message"), listEntry, cityEntry]

def forecastBody : List UInt8 := 123 :: joined forecastEntries ++ [125]

theorem main_good : ∀ e ∈ mainEntries, e.Good := by
  unfold mainEntries
  simp only [List.forall_mem_cons, List.not_mem_nil, false_implies, implies_true, and_true]
  exact ⟨one_good (by decide), one_good (by decide), one_good (by decide), one_good (by decide)⟩

theorem first_good : ∀ e ∈ firstEntries, e.Good := by
  unfold firstEntries
  simp only [List.forall_mem_cons, List.not_mem_nil, false_implies, implies_true, and_true]
  exact ⟨one_good (by decide), stringEntry_good (by decide) (by decide),
    stringEntry_good (by decide) (by decide)⟩

theorem wind_good : ∀ e ∈ windEntries, e.Good := by
  unfold windEntries
  simp only [List.forall_mem_cons, List.not_mem_nil, false_implies, implies_true, and_true]
  exact ⟨one_good (by decide), one_good (by decide)⟩

theorem note_good : noteEntry.Good := by
  have hcolon := literal_characters (s := text ":1") (by decide) .nil
  rw [List.append_nil, List.append_nil] at hcolon
  have hquote : Character 34 [92, 34] := .escaped (by decide)
  have hname := literal_characters (s := text "name") (by decide) (.cons hquote hcolon)
  exact ⟨by decide, .string (.quoted (.cons hquote hname))⟩

theorem conditions_good : mainEntry.Good ∧ weatherEntry.Good ∧ windEntry.Good ∧ nameEntry.Good :=
  ⟨objectEntry_good (by decide) (List.cons_ne_nil _ _) main_good,
    arrayEntry_good (by decide) (objectEntry_good (by decide) (List.cons_ne_nil _ _) first_good),
    objectEntry_good (by decide) (List.cons_ne_nil _ _) wind_good,
    stringEntry_good (by decide) (by decide)⟩

theorem sample_good {first : List Entry} (hfirst : ∀ e ∈ first, e.Good) :
    ∀ e ∈ sampleEntries first, e.Good := by
  obtain ⟨hmain, hweather, hwind, hname⟩ := conditions_good
  have hcoord : coordEntry.Good := objectEntry_good (by decide) (List.cons_ne_nil _ _)
    (List.forall_mem_cons.mpr ⟨one_good (by decide),
      List.forall_mem_singleton.mpr (one_good (by decide))⟩)
  have hcod : codEntry.Good :=
    ⟨by decide, .number (digits_number (by decide) ⟨List.cons_ne_nil _ _, by decide +kernel⟩)⟩
  refine List.forall_mem_append.mpr ⟨hfirst, ?_⟩
  simp only [List.forall_mem_cons, List.not_mem_nil, false_implies, implies_true, and_true]
  exact ⟨note_good, hcoord, hweather, hmain, hwind, hname, hcod⟩

theorem plain_good : ∀ e ∈ sampleEntries [], e.Good :=
  sample_good fun _ h => absurd h List.not_mem_nil

theorem item_good : ∀ e ∈ itemEntries, e.Good := by
  obtain ⟨hmain, hweather, hwind, -⟩ := conditions_good
  unfold itemEntries
  simp only [List.forall_mem_cons, List.not_mem_nil, false_implies, implies_true, and_true]
  exact ⟨one_good (by decide), hmain, hweather, hwind, stringEntry_good (by decide) (by decide)⟩

theorem forecast_good : ∀ e ∈ forecastEntries, e.Good := by
  obtain ⟨-, -, -, hname⟩ := conditions_good
  unfold forecastEntries
  simp only [List.forall_mem_cons, List.not_mem_nil, false_implies, implies_true, and_true]
  exact ⟨stringEntry_good (by decide) (by decide), one_good (by decide),
    arrayEntry_good (by decide) (objectEntry_good (by decide) (List.cons_ne_nil _ _) item_good),
    objectEntry_good (by decide) (List.cons_ne_nil _ _) (List.forall_mem_singleton.mpr hname)⟩

/-- The documented members of an object that holds these two. -/
def sampleConditions {item : List UInt8}
    (hmain : Documented (· = 123) item (text "main") mainEntry.written)
    (hweather : Documented (· = 91) item (text "weather") weatherEntry.written) :
    Conditions item where
  main := mainEntry.written
  weather := weatherEntry.written
  first := firstValue.written
  condition := quoted (text "c")
  description := quoted (text "d")
  temp := [49]
  feelsLike := [49]
  isMain := hmain
  isWeather := hweather
  isFirst := ⟨[93], [], _, rfl, blank_nil,
    .object (joined_derives (List.cons_ne_nil _ _) first_good), rfl⟩
  isCondition := @documented_joined anyLead (fun _ => true) [_] _ [_] first_good (fun _ _ => rfl)
    ⟨34, rfl, trivial⟩ (by decide +kernel)
  isDescription := @documented_joined anyLead (fun _ => true) [_, _] _ [] first_good
    (fun _ _ => rfl) ⟨34, rfl, trivial⟩ (by decide +kernel)
  isTemp := @documented_joined anyLead (fun _ => true) [] _ _ main_good (fun _ _ => rfl)
    ⟨49, rfl, trivial⟩ (by decide +kernel)
  isFeelsLike := @documented_joined anyLead (fun _ => true) [_] _ _ main_good (fun _ _ => rfl)
    ⟨49, rfl, trivial⟩ (by decide +kernel)

/-- The documented members of the body that begins with the note. -/
def sampleCurrent : Current (sampleBody []) where
  toConditions := sampleConditions
    (@documented_joined _ (· == 123) [noteEntry, coordEntry, weatherEntry] mainEntry
      [windEntry, nameEntry, codEntry] plain_good (fun _ h => beq_iff_eq.mpr h) ⟨123, rfl, rfl⟩
      (by decide +kernel))
    (@documented_joined _ (· == 91) [noteEntry, coordEntry] weatherEntry
      [mainEntry, windEntry, nameEntry, codEntry] plain_good (fun _ h => beq_iff_eq.mpr h)
      ⟨91, rfl, rfl⟩ (by decide +kernel))
  name := nameEntry.written
  humidity := [49]
  wind := windEntry.written
  speed := [49]
  isName := @documented_joined anyLead (fun _ => true)
    [noteEntry, coordEntry, weatherEntry, mainEntry, windEntry] nameEntry [codEntry] plain_good
    (fun _ _ => rfl) ⟨34, rfl, trivial⟩ (by decide +kernel)
  isHumidity := @documented_joined anyLead (fun _ => true) [_, _, _] _ [] main_good (fun _ _ => rfl)
    ⟨49, rfl, trivial⟩ (by decide +kernel)
  isWind := @documented_joined _ (· == 123) [noteEntry, coordEntry, weatherEntry, mainEntry]
    windEntry [nameEntry, codEntry] plain_good (fun _ h => beq_iff_eq.mpr h) ⟨123, rfl, rfl⟩
    (by decide +kernel)
  isSpeed := @documented_joined anyLead (fun _ => true) [] _ [_] wind_good (fun _ _ => rfl)
    ⟨49, rfl, trivial⟩ (by decide +kernel)

def sampleForecast : Forecast itemValue.written where
  toConditions := sampleConditions
    (@documented_joined _ (· == 123) [_] mainEntry _ item_good (fun _ h => beq_iff_eq.mpr h)
      ⟨123, rfl, rfl⟩ (by decide +kernel))
    (@documented_joined _ (· == 91) [_, _] weatherEntry _ item_good (fun _ h => beq_iff_eq.mpr h)
      ⟨91, rfl, rfl⟩ (by decide +kernel))
  time := quoted (text "t")
  isTime := @documented_joined anyLead (fun _ => true) [_, _, _, _] _ [] item_good (fun _ _ => rfl)
    ⟨34, rfl, trivial⟩ (by decide +kernel)

/-- The service while it waits for the present weather, and for the forecast. -/
def fetching : State := { State.initial with phase := 1 }
def forecasting : State := { State.initial with phase := 3 }

def replyOf (body : List UInt8) : Reply := ⟨200, some body, none⟩

/-! ## What is published -/

/-- A reply that is accepted is published from the documented members, and nothing behind its
body is read. Where a text holds a value, a member is the documented one unless the name of a member
before it, at any depth, ends with the quoted name and has a value of the kind; what a string value
holds does not count. -/
theorem accepted_documented {floats : Floats} (hstops : Stops floats) {w : State} {reply : Reply}
    {body : List UInt8} (hbody : reply.body = some body) (now : BitVec 64) :
    (∀ (cod : List UInt8) (r : Current body), Documented anyLead body (text "cod") cod →
      w.phase = 1 → (result floats reply now w).phase = 2 →
        IntegerOf cod 200 ∧ CurrentIn floats r w.pending (result floats reply now w).pending) ∧
    (∀ (cod list item : List UInt8) (r : Forecast item),
      Documented anyLead body (text "cod") cod → Documented (· = 91) body (text "list") list →
      (∃ rest, FirstElement list item rest) → w.phase = 3 →
        (parseReply floats reply true w.pending).1 = [] →
          IntegerOf cod 200 ∧ ForecastIn floats r w.pending (result floats reply now w).fields) ∧
    (∀ m m' forecast, parseBody floats body m forecast w.pending =
      parseBody floats body m' forecast w.pending) ∧
    ∀ (v : Value) (lead : UInt8 → Prop) (range key value : List UInt8), Word key → Holds v range →
      (Documented lead range key value ↔ ∃ before behind,
        MemberAt range before key value behind ∧ (∃ x, value.head? = some x ∧ lead x) ∧
          ∀ p, p.length < before.length → ¬NamedAt lead key range p) := by
  obtain ⟨-, -, -, -, -, -, -, -, -, -, hkCod, hkList⟩ := short_names
  refine ⟨fun cod r hcod hphase haccept => ?_,
    fun cod list item r hcod hlist hfirst hphase haccept => ?_,
    fun m m' forecast => parseBody_inside hstops body m m' forecast w.pending,
    fun v lead range key value hkey hholds => documented_iff hkey hholds⟩
  · have hreply : (parseReply floats reply false w.pending).1 = [] ∧
        (result floats reply now w).pending = (parseReply floats reply false w.pending).2 := by
      have hforecast : decide (w.phase = 3) = false := by
        rw [hphase]
        rfl
      unfold result at haccept ⊢
      rw [if_neg (by omega), hforecast] at haccept ⊢
      dsimp only at haccept ⊢
      rw [if_pos hphase] at haccept ⊢
      by_cases hmessage : (parseReply floats reply false w.pending).1 = []
      · rw [if_neg (not_not.mpr hmessage)]
        exact ⟨hmessage, rfl⟩
      · rw [if_pos hmessage] at haccept
        cases haccept
    obtain ⟨hzero, hempty, hsecond⟩ := parseReply_accepted hbody hreply.1
    obtain ⟨hcode, o, rfl, htaken, hfields⟩ := parseBody_taken hempty
    rw [hreply.2, hsecond, hfields]
    obtain ⟨behind, hlookup⟩ := hcod
    exact ⟨getInt_lookup hkCod hzero hlookup hcode, current_taken hstops hzero r htaken⟩
  · have hpublished : (result floats reply now w).fields =
        (parseReply floats reply true w.pending).2 := by
      have hforecast : decide (w.phase = 3) = true := decide_eq_true hphase
      unfold result
      rw [if_neg (by omega), hforecast]
      dsimp only
      rw [if_neg (by omega), if_neg (not_not.mpr haccept)]
    obtain ⟨hzero, hempty, hsecond⟩ := parseReply_accepted hbody haccept
    obtain ⟨hcode, o, ho, htaken, hfields⟩ := parseBody_taken hempty
    obtain ⟨⟨memory, hitem⟩, hzItem⟩ := @array_taken body [0] _ _ _ hkList hzero hlist hfirst
    rw [if_pos rfl, hitem] at ho
    cases ho
    rw [hpublished, hsecond, hfields]
    obtain ⟨behind, hlookup⟩ := hcod
    exact ⟨getInt_lookup hkCod hzero hlookup hcode, forecast_taken hstops hzItem r htaken⟩

theorem accepted_documented_sample :
    (IntegerOf codEntry.written 200 ∧
      CurrentIn integers sampleCurrent fetching.pending
        (result integers (replyOf (sampleBody [])) 0 fetching).pending) ∧
    IntegerOf codText.written 200 ∧
      ForecastIn integers sampleForecast forecasting.pending
        (result integers (replyOf forecastBody) 0 forecasting).fields := by
  have hcod := @documented_joined anyLead (fun _ => true)
    [noteEntry, coordEntry, weatherEntry, mainEntry, windEntry, nameEntry] codEntry [] plain_good
    (fun _ _ => rfl) ⟨50, rfl, trivial⟩ (by decide +kernel)
  have hcodText := @documented_joined anyLead (fun _ => true) [] codText
    [one (text "message"), listEntry, cityEntry] forecast_good (fun _ _ => rfl) ⟨34, rfl, trivial⟩
    (by decide +kernel)
  have hlist := @documented_joined _ (· == 91) [codText, one (text "message")] listEntry [cityEntry]
    forecast_good (fun _ h => beq_iff_eq.mpr h) ⟨91, rfl, rfl⟩ (by decide +kernel)
  have hfirst : ∃ rest, FirstElement listEntry.written itemValue.written rest :=
    ⟨[93], [], _, rfl, blank_nil, .object (joined_derives (List.cons_ne_nil _ _) item_good), rfl⟩
  refine ⟨(accepted_documented integers_stops rfl 0).1 codEntry.written sampleCurrent hcod rfl
    (by decide +kernel), ?_⟩
  exact (accepted_documented integers_stops rfl 0).2.1 codText.written listEntry.written
    itemValue.written sampleForecast hcodText hlist hfirst rfl (by decide +kernel)

/-- A member of the same name, in an object of its own. -/
def nested : Entry := objectEntry (text "x") [stringEntry (text "name") (text "a")]

theorem nested_good : ∀ e ∈ [nested], e.Good :=
  List.forall_mem_singleton.mpr (objectEntry_good (by decide) (List.cons_ne_nil _ _)
    (List.forall_mem_singleton.mpr (stringEntry_good (by decide) (by decide))))

theorem nested_name_taken :
    ∃ (floats : Floats) (w : State) (body before value behind t : List UInt8)
      (ms : List (List Nat × Value)),
      Stops floats ∧ Derives (.value (.object ms)) body ∧ Distinct (.object ms) ∧ w.phase = 1 ∧
        (result floats (replyOf body) 0 w).phase = 2 ∧
        MemberAt body before (text "name") value behind ∧ StringOf value t ∧
        (result floats (replyOf body) 0 w).pending 0 ≠ t.take (FIELD_BYTES - 1) := by
  have hgood := sample_good nested_good
  refine ⟨integers, fetching, sampleBody [nested], _, nameEntry.written, _, text "b", _,
    integers_stops, .object (joined_derives (List.cons_ne_nil _ _) hgood), ?_, rfl,
    by decide +kernel,
    @memberAt_joined [nested, noteEntry, coordEntry, weatherEntry, mainEntry, windEntry] nameEntry
      [codEntry] hgood,
    ⟨_, rfl, folded_list (by decide +kernel)⟩, ?_⟩
  · have hone (name : List UInt8) : Distinct (one name).value := .plain
    refine distinct_entries (by decide) ?_
    simp only [sampleEntries, List.singleton_append, List.forall_mem_cons, List.not_mem_nil,
      false_implies, implies_true, and_true]
    refine ⟨distinct_entries (by decide) (List.forall_mem_singleton.mpr .string), .string,
      distinct_entries (by decide) ?_, .array (List.forall_mem_singleton.mpr
        (distinct_entries (by decide) ?_)), distinct_entries (by decide) ?_,
      distinct_entries (by decide) ?_, .string, .plain⟩
    · simp only [List.forall_mem_cons, List.not_mem_nil, false_implies, implies_true, and_true]
      exact ⟨hone _, hone _⟩
    · simp only [firstEntries, List.forall_mem_cons, List.not_mem_nil, false_implies, implies_true,
        and_true]
      exact ⟨hone _, .string, .string⟩
    · simp only [mainEntries, List.forall_mem_cons, List.not_mem_nil, false_implies, implies_true,
        and_true]
      exact ⟨hone _, hone _, hone _, hone _⟩
    · simp only [windEntries, List.forall_mem_cons, List.not_mem_nil, false_implies, implies_true,
        and_true]
      exact ⟨hone _, hone _⟩
  · decide +kernel

end Z80Sbc.Weather.Extraction
