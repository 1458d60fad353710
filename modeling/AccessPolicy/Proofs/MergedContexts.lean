import AccessPolicy.Decision.Attributes
import Mathlib.Data.List.Induction
import Mathlib.Data.List.Nodup
import Mathlib.Tactic.Common

/-!
# Who decides what a condition reads

The environment of a request is written in layers, and a later layer writes over an earlier one:
the built-in attributes, the properties of the user, those of the resource, and what the
caller says. The properties have keys of any kind, yet they reach neither the names and the role nor
what belongs to the caller, and the caller reaches no attribute of the user or the resource
(`Environment.merged_ofRequest`).
-/

namespace AccessPolicy

namespace Environment

theorem setAll_concat (env : Environment) (object : String) (fields : List (String × Value))
    (f : String × Value) :
    env.setAll object (fields ++ [f]) = (env.setAll object fields).set object f.1 f.2 :=
  List.foldl_concat ..

/-- Values are given to fields of one object, and of several for one field the last counts. -/
theorem get?_setAll (env : Environment) (object : String) (fields : List (String × Value))
    (object' field : String) :
    (env.setAll object fields).get? object' field =
      (if object = object' then NameMap.get? fields.reverse field else none).or
        (env.get? object' field) := by
  induction fields using List.reverseRecOn with
  | nil =>
      rw [List.reverse_nil, show NameMap.get? [] field = (none : Option Value) from rfl, ite_self]
      rfl
  | append_singleton fields f ih =>
      rw [setAll_concat, List.reverse_concat, NameMap.get?]
      by_cases hobject : object = object'
      · by_cases hfield : f.1 = field
        · rw [← hobject, ← hfield, get?_set_self, if_pos rfl, if_pos rfl]
          rfl
        · rw [get?_set_of_ne _ _ (fun h => hfield h.2), ih, if_neg hfield]
      · rw [get?_set_of_ne _ _ (fun h => hobject h.1), ih, if_neg hobject, if_neg hobject]

theorem group_setAll_of_ne (env : Environment) {object object' : String}
    (fields : List (String × Value)) (h : object ≠ object') :
    (env.setAll object fields).group object' = env.group object' := by
  induction fields using List.reverseRecOn with
  | nil => rfl
  | append_singleton fields f ih =>
      rw [setAll_concat, ← ih]
      unfold group set
      rw [NameMap.get?_insert_of_ne _ _ h]

theorem get?_setAll_of_ne (env : Environment) {object object' : String}
    (fields : List (String × Value)) (field : String) (h : object ≠ object') :
    (env.setAll object fields).get? object' field = env.get? object' field :=
  congrArg (NameMap.get? · field) (env.group_setAll_of_ne fields h)

def Defines (env : Environment) (object field : String) : Prop :=
  (env.get? object field).isSome = true

theorem defines_setAll {env : Environment} {object object' field : String}
    {fields : List (String × Value)} :
    (env.setAll object fields).Defines object' field ↔
      object = object' ∧ field ∈ fields.map Prod.fst ∨ env.Defines object' field := by
  unfold Defines
  rw [get?_setAll, Option.isSome_or, Bool.or_eq_true]
  refine or_congr ?_ Iff.rfl
  split_ifs with hobject
  · rw [and_iff_right hobject, ← List.mem_reverse, ← List.map_reverse]
    exact NameMap.contains_iff
  · simp [hobject]

end Environment

/-! ## The built-in attributes -/

theorem mem_builtinFields_iff {object field : String} :
    field ∈ builtinFields object ↔ ∃ n ∈ namespaces, n.1 = object ∧ field ∈ n.2 := by
  constructor
  · intro hfield
    unfold builtinFields at hfield
    cases hfind : namespaces.find? fun n => n.1 = object with
    | none =>
        rw [hfind] at hfield
        cases hfield
    | some n =>
        rw [hfind] at hfield
        exact ⟨n, List.mem_of_find?_eq_some hfind, by simpa using List.find?_some hfind, hfield⟩
  · rintro ⟨n, hn, rfl, hfield⟩
    have hall : ∀ n ∈ namespaces, builtinFields n.1 = n.2 := by decide +kernel
    rwa [hall n hn]

namespace Environment

theorem get?_setAll_null (env : Environment) (object : String) (fields : List String)
    (object' field : String) :
    (env.setAll object (fields.map fun f => (f, Value.null))).get? object' field =
      if object = object' ∧ field ∈ fields then some .null else env.get? object' field := by
  induction fields using List.reverseRecOn with
  | nil => simp [setAll]
  | append_singleton fields f ih =>
      rw [List.map_append, List.map_singleton, setAll_concat]
      by_cases hsame : object = object' ∧ f = field
      · obtain ⟨rfl, rfl⟩ := hsame
        simp [get?_set_self]
      · have hmem : object = object' ∧ field ∈ fields ++ [f] ↔
            object = object' ∧ field ∈ fields := by
          refine and_congr_right fun hobject => ?_
          have hother : field ≠ f := fun hfield => hsame ⟨hobject, hfield.symm⟩
          rw [List.mem_append, List.mem_singleton, or_iff_left hother]
        rw [get?_set_of_ne _ _ hsame, ih]
        simp only [hmem]

theorem get?_builtin (object field : String) :
    builtin.get? object field = if field ∈ builtinFields object then some .null else none := by
  have hlayers : ∀ (ns : List (String × List String)) (env : Environment),
      (ns.foldl (fun env n => env.setAll n.1 (n.2.map fun f => (f, Value.null))) env).get?
          object field =
        if ∃ n ∈ ns, n.1 = object ∧ field ∈ n.2 then some .null else env.get? object field := by
    intro ns
    induction ns with
    | nil => simp
    | cons n ns ih =>
        intro env
        rw [List.foldl_cons, ih, get?_setAll_null]
        simp only [List.exists_mem_cons_iff]
        by_cases hfirst : n.1 = object ∧ field ∈ n.2
        · rw [if_pos hfirst, if_pos (Or.inl hfirst), ite_self]
        · rw [if_neg hfirst]
          simp only [hfirst, false_or]
  unfold builtin
  rw [hlayers]
  simp only [mem_builtinFields_iff]
  rfl

theorem defines_builtin_iff {object field : String} :
    builtin.Defines object field ↔ field ∈ builtinFields object := by
  unfold Defines
  rw [get?_builtin]
  split_ifs with hfield
  · simp [hfield]
  · simp [hfield]

end Environment

/-! ## Headers as text

The object of the names and the texts of the headers, as compact JSON text. -/

namespace Headers

/-- The characters with an escape of their own, and what stands behind the backslash. -/
def namedEscapes : List (Char × String) :=
  [('"', "\""), ('\\', "\\"), ('\x08', "b"), ('\x0c', "f"), ('\n', "n"), ('\r', "r"), ('\t', "t")]

/-- The other characters below the blank are written by their code points, in four hexadecimal
digits. -/
def writtenChar (c : Char) : String :=
  match namedEscapes.lookup c with
  | some escape => "\\" ++ escape
  | none =>
    if c < ' ' then
      "\\u" ++ String.ofList (List.leftpad 4 '0' (Nat.toDigits 16 c.toNat))
    else String.singleton c

def writtenString (s : String) : String := "\"" ++ String.join (s.toList.map writtenChar) ++ "\""

/-- Each header is its name, a colon and its text; commas stand between them. -/
def written (headers : NameMap String) : String :=
  let entries := headers.map fun h => writtenString h.1 ++ ":" ++ writtenString h.2
  "\x7b" ++ ",".intercalate entries ++ "\x7d"

theorem escapeChar_eq (c : Char) : Json.escapeChar c = writtenChar c := by
  by_cases hlow : c.toNat < 128
  · have hall : ∀ n < 128, Json.escapeChar (Char.ofNat n) = writtenChar (Char.ofNat n) := by
      decide +kernel
    have := hall c.toNat hlow
    rwa [Char.ofNat_toNat] at this
  · -- every character with an escape is below these
    have hne : ∀ d : Char, d.toNat < 128 → c ≠ d := fun d hd h => hlow (h ▸ hd)
    have hlookup : namedEscapes.lookup c = none := by
      have hkeys : ∀ e ∈ namedEscapes, e.1.toNat < 128 := by decide
      refine List.lookup_eq_none_iff.mpr fun e he => ?_
      simpa using hne e.1 (hkeys e he)
    have hblank : ¬c < ' ' := fun h => by
      have : c.toNat < 32 := h
      omega
    unfold writtenChar Json.escapeChar
    rw [hlookup]
    dsimp only
    rw [if_neg hblank]
    split
    · exact absurd rfl (hne '"' (by decide))
    · exact absurd rfl (hne '\\' (by decide))
    · exact absurd rfl (hne '\n' (by decide))
    · exact absurd rfl (hne '\r' (by decide))
    · exact absurd rfl (hne '\t' (by decide))
    · rw [if_neg (by omega), if_neg (by omega), if_neg (by omega)]

theorem quote_eq (s : String) : Json.quote s = writtenString s := by
  have hfold : ∀ (cs : List Char) (start : String),
      cs.foldl (fun out c => out ++ Json.escapeChar c) start =
        start ++ String.join (cs.map writtenChar) := by
    intro cs
    induction cs with
    | nil => simp
    | cons c cs ih =>
        intro start
        rw [List.foldl_cons, ih, List.map_cons, String.join_cons, escapeChar_eq,
          String.append_assoc]
  unfold Json.quote writtenString
  rw [hfold]

/-- **The text of headers.** It is the compact text of their document. -/
theorem compact_headersJson (headers : NameMap String) :
    (RequestFields.headersJson headers).compact = written headers := by
  have hfields : ∀ hs : List (String × String),
      Json.compactFields (hs.map fun h => (h.1, .string h.2)) =
        ",".intercalate (hs.map fun h => writtenString h.1 ++ ":" ++ writtenString h.2) := by
    intro hs
    induction hs with
    | nil => rfl
    | cons h hs ih =>
        cases hs with
        | nil =>
            simp only [List.map_cons, List.map_nil, Json.compactFields, Json.compact, quote_eq,
              String.intercalate_singleton]
        | cons next hs =>
            simp only [List.map_cons] at ih ⊢
            rw [Json.compactFields, ih, String.intercalate_cons_cons, Json.compact, quote_eq,
              quote_eq]
  unfold RequestFields.headersJson written
  rw [Json.compact, hfields]
  rfl

end Headers

/-! ## What the caller may say -/

/-- An attribute that is the caller's to give: what the caller says of it, and what it is if the
caller says nothing. -/
structure CallerField where
  field : String
  supplied : CallerContext → Option Value
  unsupplied : Moment → Value

def CallerField.value (f : CallerField) (context : CallerContext) (now : Moment) : Value :=
  (f.supplied context).getD (f.unsupplied now)

/-- What the caller does not say of the time is read from the clock. -/
def CallerField.ofTime : List CallerField := [
  ⟨"hour", fun c => c.time.hour.map fun n : Nat => .ofInt n, fun now => .ofInt now.hour⟩,
  ⟨"minute", fun c => c.time.minute.map fun n : Nat => .ofInt n, fun now => .ofInt now.minute⟩,
  ⟨"day", fun c => c.time.day.map fun n : Nat => .ofInt n, fun now => .ofInt now.day⟩,
  ⟨"month", fun c => c.time.month.map fun n : Nat => .ofInt n, fun now => .ofInt now.month⟩,
  ⟨"year", fun c => c.time.year.map .ofInt, fun now => .ofInt now.year⟩,
  ⟨"weekday", fun c => c.time.weekday.map .text, fun now => .text now.weekday⟩,
  ⟨"date", fun c => c.time.date.map .text, fun now => .text now.date⟩]

def CallerField.ofRequest : List CallerField := [
  ⟨"ip", fun c => c.request.ip.map .text, fun _ => .null⟩,
  ⟨"method", fun c => c.request.method.map .text, fun _ => .null⟩,
  ⟨"path", fun c => c.request.path.map .text, fun _ => .null⟩,
  ⟨"user_agent", fun c => c.request.userAgent.map .text, fun _ => .null⟩,
  ⟨"headers", fun c => c.request.headers.map fun h => .text (Headers.written h),
    fun _ => .text "\x7b\x7d"⟩]

def CallerField.ofDevice : List CallerField := [
  ⟨"type", fun c => c.device.kind.map .text, fun _ => .null⟩,
  ⟨"trusted", fun c => c.device.trusted.map .bool, fun _ => .bool false⟩,
  ⟨"os", fun c => c.device.os.map .text, fun _ => .null⟩,
  ⟨"browser", fun c => c.device.browser.map .text, fun _ => .null⟩,
  ⟨"location", fun c => c.device.location.map .text, fun _ => .null⟩,
  ⟨"id", fun c => c.device.id.map .text, fun _ => .null⟩]

/-- The objects that belong to the caller, with their fields. -/
def callerFields : List (String × List CallerField) :=
  [("time", CallerField.ofTime), ("request", CallerField.ofRequest),
    ("device", CallerField.ofDevice)]

/-- Every built-in field of these objects is the caller's to give. -/
theorem perm_callerFields :
    ∀ g ∈ callerFields, (g.2.map CallerField.field).Perm (builtinFields g.1) := by
  decide +kernel

section
variable (context : CallerContext) (now : Moment)

def CallerField.layer (fields : List CallerField) : List (String × Value) :=
  fields.map fun f => (f.field, f.value context now)

theorem Value.ofOptional_eq (s : Option String) : ofOptional s = (s.map .text).getD .null := by
  cases s <;> rfl

theorem TimeFields.attributes_eq :
    context.time.attributes now = CallerField.layer context now CallerField.ofTime := by
  simp only [attributes, CallerField.layer, CallerField.ofTime, CallerField.value, List.map_cons,
    List.map_nil, Option.getD_map]

theorem RequestFields.attributes_eq :
    context.request.attributes = CallerField.layer context now CallerField.ofRequest := by
  simp only [attributes, CallerField.layer, CallerField.ofRequest, CallerField.value,
    List.map_cons, List.map_nil, Value.ofOptional_eq, Headers.compact_headersJson]
  -- without headers the object is empty
  cases context.request.headers <;> rfl

theorem DeviceFields.attributes_eq :
    context.device.attributes = CallerField.layer context now CallerField.ofDevice := by
  simp only [attributes, CallerField.layer, CallerField.ofDevice, CallerField.value,
    List.map_cons, List.map_nil, Value.ofOptional_eq, Option.getD_map]

theorem CallerField.map_fst_layer (fields : List CallerField) :
    (layer context now fields).map Prod.fst = fields.map CallerField.field := List.map_map

end

/-! ## The layers of a request -/

theorem get?_ofProperty_reverse (properties : PropertyValues) (field : String) :
    NameMap.get? (properties.map fun p => (p.1, Value.ofProperty p.2)).reverse field =
      (NameMap.get? properties.reverse field).map Value.ofProperty := by
  rw [← List.map_reverse]
  exact NameMap.get?_map (fun _ => Value.ofProperty) properties.reverse field

def User.read? (user : User) (role field : String) : Option Value :=
  if field = "name" then some (.text user.name)
  else if field = "role" then some (.text role)
  else ((NameMap.get? user.properties.reverse field).map Value.ofProperty).or
    (if field ∈ builtinFields "user" then some .null else none)

def Resource.read? (resource : Resource) (field : String) : Option Value :=
  if field = "name" then some (.text resource.name)
  else if field = "path" then some (.ofOptional resource.path)
  else ((NameMap.get? resource.properties.reverse field).map Value.ofProperty).or
    (if field ∈ builtinFields "resource" then some .null else none)

namespace Environment
variable (user : User) (role : String) (resource : Resource) (context : CallerContext)
  (now : Moment)

/-- Two fields that are given values after the properties have these, and the other fields have
those of the properties. -/
theorem get?_setAll_identity (env : Environment) (object : String) (properties : PropertyValues)
    {first second : String} (hne : first ≠ second) (a b : Value) (field : String) :
    (env.setAll object ((properties.map fun p => (p.1, Value.ofProperty p.2)) ++
      [(first, a), (second, b)])).get? object field =
      if field = first then some a
      else if field = second then some b
      else ((NameMap.get? properties.reverse field).map Value.ofProperty).or
        (env.get? object field) := by
  have hlast : ∀ fields : List (String × Value),
      (fields ++ [(first, a), (second, b)]).reverse = (second, b) :: (first, a) :: fields.reverse :=
    fun _ => List.reverse_append
  rw [get?_setAll, if_pos rfl, hlast, NameMap.get?, NameMap.get?, get?_ofProperty_reverse]
  by_cases hfirst : field = first
  · subst hfirst
    rw [if_neg hne.symm, if_pos rfl, if_pos rfl]
    rfl
  · by_cases hsecond : field = second
    · subst hsecond
      rw [if_pos rfl, if_neg hfirst, if_pos rfl]
      rfl
    · rw [if_neg (Ne.symm hsecond), if_neg (Ne.symm hfirst), if_neg hfirst, if_neg hsecond]

theorem get?_user_eq (field : String) :
    (ofRequest user role resource context now).get? "user" field = user.read? role field := by
  unfold ofRequest
  rw [get?_setAll_of_ne _ _ _ (by decide), get?_setAll_of_ne _ _ _ (by decide),
    get?_setAll_of_ne _ _ _ (by decide), get?_setAll_of_ne _ _ _ (by decide)]
  exact (get?_setAll_identity _ _ _ (by decide) _ _ field).trans (by rw [get?_builtin]; rfl)

/-- A user is in the assigned role, whatever the properties and the caller say. -/
theorem get?_role_ofRequest :
    (ofRequest user role resource context now).get? "user" "role" = some (.text role) :=
  get?_user_eq user role resource context now "role"

/-- The attributes that are there. The caller adds none. -/
theorem defines_ofRequest_iff {object field : String} :
    (ofRequest user role resource context now).Defines object field ↔
      field ∈ builtinFields object ∨ object = "user" ∧ field ∈ user.properties.names ∨
        object = "resource" ∧ (field = "name" ∨ field ∈ resource.properties.names) := by
  have hcaller : ∀ g ∈ callerFields,
      g.1 = object ∧ field ∈ (CallerField.layer context now g.2).map Prod.fst →
        field ∈ builtinFields object := by
    rintro g hg ⟨rfl, hfield⟩
    rw [CallerField.map_fst_layer] at hfield
    exact (perm_callerFields g hg).mem_iff.mp hfield
  have hlayer : ∀ {properties : PropertyValues} {a b : String × Value},
      field ∈ ((properties.map fun p => (p.1, Value.ofProperty p.2)) ++ [a, b]).map Prod.fst ↔
        field ∈ properties.names ∨ field = a.1 ∨ field = b.1 := by
    intro properties a b
    rw [List.map_append, List.map_map, List.mem_append]
    simp [NameMap.names]
  unfold ofRequest User.attributes Resource.attributes
  rw [TimeFields.attributes_eq, RequestFields.attributes_eq context now,
    DeviceFields.attributes_eq context now]
  simp only [defines_setAll, defines_builtin_iff, hlayer]
  constructor
  · rintro (hdevice | hrequest | htime | ⟨rfl, hkey | rfl | rfl⟩ | ⟨rfl, hkey | rfl | rfl⟩ |
      hbuiltin)
    · exact Or.inl (hcaller ("device", CallerField.ofDevice) (by simp [callerFields]) hdevice)
    · exact Or.inl (hcaller ("request", CallerField.ofRequest) (by simp [callerFields]) hrequest)
    · exact Or.inl (hcaller ("time", CallerField.ofTime) (by simp [callerFields]) htime)
    · exact Or.inr (Or.inr ⟨rfl, Or.inr hkey⟩)
    · exact Or.inr (Or.inr ⟨rfl, Or.inl rfl⟩)
    · exact Or.inl (by decide)
    · exact Or.inr (Or.inl ⟨rfl, hkey⟩)
    · exact Or.inl (by decide)
    · exact Or.inl (by decide)
    · exact Or.inl hbuiltin
  · rintro (hbuiltin | ⟨rfl, hkey⟩ | ⟨rfl, rfl | hkey⟩)
    · simp [hbuiltin]
    · simp [hkey]
    · simp
    · simp [hkey]

theorem group_ofRequest_eq {object : String} (h : object ∉ ["time", "request", "device"])
    (context' : CallerContext) (now' : Moment) :
    (ofRequest user role resource context' now').group object =
      (ofRequest user role resource context now).group object := by
  simp only [List.mem_cons, List.not_mem_nil, or_false, not_or] at h
  obtain ⟨htime, hrequest, hdevice⟩ := h
  unfold ofRequest
  rw [group_setAll_of_ne _ _ (Ne.symm hdevice), group_setAll_of_ne _ _ (Ne.symm hrequest),
    group_setAll_of_ne _ _ (Ne.symm htime), group_setAll_of_ne _ _ (Ne.symm hdevice),
    group_setAll_of_ne _ _ (Ne.symm hrequest), group_setAll_of_ne _ _ (Ne.symm htime)]

end Environment
end AccessPolicy
