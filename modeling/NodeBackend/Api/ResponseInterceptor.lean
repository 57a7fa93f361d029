import NodeBackend.Common.DataParser
import NodeBackend.Common.Masks
import NodeBackend.Common.RequestInterface
import NodeBackend.Js.StructuredClone
import NodeBackend.User.Services

namespace node_backend.response_interceptor

open json
open node_backend.masks node_backend.request_interface node_backend.user_strategy

/-- A body that is not a tree of plain data. -/
inductive Binary
  | streamableFile (bytes : List UInt8)
  | arrayBuffer (bytes : List UInt8)
  | buffer (bytes : List UInt8)

def maskBuffer : Binary → String
  | .streamableFile _ => "[StreamableFile]"
  | .arrayBuffer _ => "[ArrayBuffer]"
  | .buffer _ => "[Buffer]"

/-- What a request carries or a handler returns. -/
inductive Data
  | undefined
  | binary (content : Binary)
  | plain (data : ProperValue)

/-- What is thrown, with the fields that it has of its own beside the name and the message. -/
structure ThrownError where
  name : String
  message : String
  fields : List (String × Value)

structure Request extends RequestInterface where
  params : Data
  query : Data
  body : Data
  user : Option UserAuthInterface

def getRequestPath (request : Request) : String :=
  request_interface.path request.toRequestInterface

/-- Only objects and arrays are masked. -/
def maskPlain (data : Value) : Value :=
  match data with
  | .obj _ | .arr _ => (maskObjectSensitiveData data).value
  | primitive => primitive

/-- What the template shows for a JSON.stringify that gives undefined is "undefined". -/
def parseRequestDataToString : Data → String
  | .undefined => "undefined"
  | .binary content => (Value.str (maskBuffer content)).stringify
  | .plain data => (maskPlain data.value).stringify

def parseResponseDataToString : Data → Except js.TypeError String
  | .undefined => data_parser_helper.toString false .undefined
  | .binary content => data_parser_helper.toString false (.str (maskBuffer content))
  | .plain data => data_parser_helper.toString false (js.ofJson (maskPlain data.value))

/-- The same for an error. Where a field is to be masked the error is cloned, and a clone
keeps the message, a standard name and no fields. -/
def parseErrorToString (error : ThrownError) : String :=
  let name :=
    if checkFieldsExistence SENSITIVE_DATA_FIELDS (.obj error.fields) then
      if error.name ∈ js.errorNames then error.name else "Error"
    else error.name
  name ++ ": " ++ error.message

/-- The method and the path, as every line shows them. -/
def routeText (request : Request) : String :=
  "[" ++ request.method.toUpper ++ "] " ++ getRequestPath request

def requested (request : Request) : String :=
  "REQUESTED - " ++ routeText request ++ " \x7b pathParams: " ++ parseRequestDataToString request.params ++
    ", queryParams: " ++ parseRequestDataToString request.query ++
    ", body: " ++ parseRequestDataToString request.body ++
    ", userId: " ++ (request.user.bind (·.clientId)).getD "undefined" ++ " \x7d"

def responding (request : Request) (timestamp : String) : Except String String → String
  | .ok resData => "RESPONDING - " ++ routeText request ++ " (" ++ timestamp ++ " ms): " ++ resData
  | .error resErr => "RESPONDING ERROR - " ++ routeText request ++ " (" ++ timestamp ++ " ms): " ++ resErr

/-- The text of a result or of an error. Where the text of a result throws, that error is
caught like one of the handler. -/
def handledText : Except ThrownError Data → Except String String
  | .ok responseData =>
    (parseResponseDataToString responseData).mapError fun error => parseErrorToString ⟨"TypeError", error.message, []⟩
  | .error responseError => .error (parseErrorToString responseError)

/-- The lines that intercept logs of an exchange. -/
def intercept (request : Request) (timestamp : String) (handled : Except ThrownError Data) : List String :=
  [requested request, responding request timestamp (handledText handled)]

section agreement

mutual

/-- Equal up to what stands in the hidden fields, at every depth. -/
def Agree (hidden : List String) : Value → Value → Prop
  | .arr items, .arr others => AgreeItems hidden items others
  | .obj fields, .obj others => AgreeFields hidden fields others
  | v, w => v = w

def AgreeItems (hidden : List String) : List Value → List Value → Prop
  | [], [] => True
  | item :: items, other :: others => Agree hidden item other ∧ AgreeItems hidden items others
  | _, _ => False

def AgreeFields (hidden : List String) : List (String × Value) → List (String × Value) → Prop
  | [], [] => True
  | (key, value) :: fields, (name, other) :: others =>
    key = name ∧ (key ∉ hidden → Agree hidden value other) ∧ AgreeFields hidden fields others
  | _, _ => False

end

variable {hidden : List String} {valueToReplace : Value}

theorem agreeItems_iff {items : List Value}
    (ih : ∀ item ∈ items, ∀ other, Agree hidden item other ↔
      maskFields hidden valueToReplace item = maskFields hidden valueToReplace other) (others : List Value) :
    AgreeItems hidden items others ↔
      maskItemList hidden valueToReplace items = maskItemList hidden valueToReplace others := by
  induction items generalizing others with
  | nil => cases others <;> simp [AgreeItems, maskItemList]
  | cons item items ihitems =>
    cases others with
    | nil => simp [AgreeItems, maskItemList]
    | cons other others =>
      rw [AgreeItems, maskItemList, maskItemList, List.cons.injEq, ih item List.mem_cons_self,
        ihitems fun item hitem => ih item (List.mem_cons_of_mem _ hitem)]

theorem agreeFields_iff {fields : List (String × Value)}
    (ih : ∀ field ∈ fields, ∀ other, Agree hidden field.2 other ↔
      maskFields hidden valueToReplace field.2 = maskFields hidden valueToReplace other)
    (others : List (String × Value)) :
    AgreeFields hidden fields others ↔
      maskFieldList hidden valueToReplace fields = maskFieldList hidden valueToReplace others := by
  induction fields generalizing others with
  | nil => cases others <;> simp [AgreeFields, maskFieldList]
  | cons field fields ihfields =>
    obtain ⟨key, value⟩ := field
    cases others with
    | nil => simp [AgreeFields, maskFieldList]
    | cons other others =>
      obtain ⟨name, other⟩ := other
      rw [AgreeFields, maskFieldList, maskFieldList, List.cons.injEq, Prod.mk.injEq, ih _ List.mem_cons_self,
        ihfields fun field hfield => ih field (List.mem_cons_of_mem _ hfield), and_assoc]
      refine and_congr_right fun hkey => and_congr_left fun _ => ?_
      subst hkey
      by_cases hhidden : key ∈ hidden <;> simp [hhidden]

/-- Values agree if masking makes them equal. -/
theorem agree_iff_mask (valueToReplace v w : Value) :
    Agree hidden v w ↔ maskFields hidden valueToReplace v = maskFields hidden valueToReplace w := by
  induction v generalizing w with
  | arr items ih =>
    cases w with
    | arr others => rw [Agree, maskFields, maskFields, Value.arr.injEq, agreeItems_iff ih]
    | _ => simp [Agree, maskFields]
  | obj fields ih =>
    cases w with
    | obj others => rw [Agree, maskFields, maskFields, Value.obj.injEq, agreeFields_iff ih]
    | _ => simp [Agree, maskFields]
  | _ => cases w <;> simp [Agree, maskFields]

end agreement

section gate

variable {hidden : List String} {valueToReplace : Value}

/-- A field with one of the names, at some depth. -/
def Hides (hidden : List String) (v : Value) : Prop :=
  ∃ key value, FieldOf v key value ∧ key ∈ hidden

theorem Hides.mask {v : Value} (h : Hides hidden v) : Hides hidden (maskFields hidden valueToReplace v) := by
  obtain ⟨key, value, hfield, hkey⟩ := h
  induction hfield with
  | here hmem =>
    rw [maskFields, maskFieldList_eq_map]
    exact ⟨_, _, .here (List.mem_map_of_mem hmem), hkey⟩
  | @field fields name key inner value hmem hinner ih =>
    obtain ⟨found, _, hfound, hhidden⟩ := ih hkey
    rw [maskFields, maskFieldList_eq_map]
    by_cases hname : name ∈ hidden
    · exact ⟨_, _, .here (List.mem_map_of_mem hmem), hname⟩
    · have hmasked := List.mem_map_of_mem (f := fun field : String × Value =>
        (field.1, if field.1 ∈ hidden then valueToReplace else maskFields hidden valueToReplace field.2)) hmem
      rw [if_neg hname] at hmasked
      exact ⟨found, _, .field hmasked hfound, hhidden⟩
  | item hmem hitem ih =>
    obtain ⟨found, _, hfound, hhidden⟩ := ih hkey
    rw [maskFields, maskItemList_eq_map]
    exact ⟨found, _, .item (List.mem_map_of_mem hmem) hfound, hhidden⟩

/-- Masking makes no field that was not there. -/
theorem hides_of_mask {v : Value} (h : Hides hidden (maskFields hidden valueToReplace v)) : Hides hidden v := by
  obtain ⟨key, value, hfield, hkey⟩ := h
  induction v with
  | arr items ih =>
    rw [maskFields, maskItemList_eq_map] at hfield
    cases hfield with
    | item hmem hitem =>
      obtain ⟨source, hsource, rfl⟩ := List.mem_map.mp hmem
      obtain ⟨found, inner, hfound, hhidden⟩ := ih source hsource hitem
      exact ⟨found, inner, .item hsource hfound, hhidden⟩
  | obj fields ih =>
    rw [maskFields, maskFieldList_eq_map] at hfield
    cases hfield with
    | here hmem =>
      obtain ⟨source, hsource, heq⟩ := List.mem_map.mp hmem
      obtain ⟨rfl, _⟩ := Prod.mk.inj heq
      exact ⟨source.1, source.2, .here hsource, hkey⟩
    | field hmem hinner =>
      obtain ⟨source, hsource, heq⟩ := List.mem_map.mp hmem
      obtain ⟨rfl, rfl⟩ := Prod.mk.inj heq
      by_cases hname : source.1 ∈ hidden
      · exact ⟨source.1, source.2, .here hsource, hname⟩
      · rw [if_neg hname] at hinner
        obtain ⟨found, inner, hfound, hhidden⟩ := ih source hsource hinner
        exact ⟨found, inner, .field hsource hfound, hhidden⟩
  | _ => cases hfield

theorem hides_iff_of_agree {v w : Value} (h : Agree hidden v w) : Hides hidden v ↔ Hides hidden w := by
  have hmask := (agree_iff_mask STRING_TO_REPLACE v w).mp h
  constructor
  · intro hv
    exact hides_of_mask (hmask ▸ hv.mask)
  · intro hw
    exact hides_of_mask (hmask ▸ hw.mask)

/-- Values that agree pass the gate together. -/
theorem checkFieldsExistence_eq_of_agree {v w : Value} (h : Agree SENSITIVE_DATA_FIELDS v w) :
    checkFieldsExistence SENSITIVE_DATA_FIELDS v = checkFieldsExistence SENSITIVE_DATA_FIELDS w := by
  rw [Bool.eq_iff_iff, sensitive_named.checkFieldsExistence_iff, sensitive_named.checkFieldsExistence_iff]
  exact hides_iff_of_agree h

end gate

theorem mask_value {d : Value} (hproper : d.Proper) (hobject : IsObject d) :
    (maskObjectSensitiveData d).value = maskFields SENSITIVE_DATA_FIELDS STRING_TO_REPLACE d := by
  rw [mask_object hproper hobject]
  by_cases hcheck : checkFieldsExistence SENSITIVE_DATA_FIELDS d = true
  · rw [if_pos hcheck, Masked.value]
  · rw [if_neg hcheck, Masked.value, maskFields_eq_self]
    intro key value hfield hkey
    exact hcheck ((sensitive_named.checkFieldsExistence_iff d).mpr ⟨key, value, hfield, hkey⟩)

theorem maskFields_proper {hidden : List String} {v : Value} (hproper : v.Proper) :
    (maskFields hidden STRING_TO_REPLACE v).Proper := by
  induction v with
  | arr items ih =>
    rw [Value.proper_arr_iff] at hproper
    rw [maskFields, maskItemList_eq_map, Value.proper_arr_iff]
    intro item hitem
    obtain ⟨source, hsource, rfl⟩ := List.mem_map.mp hitem
    exact ih source hsource (hproper source hsource)
  | obj fields ih =>
    rw [Value.proper_obj_iff] at hproper
    rw [maskFields, maskFieldList_eq_map, Value.proper_obj_iff, List.map_map]
    refine ⟨hproper.1, ?_⟩
    intro field hfield
    obtain ⟨source, hsource, rfl⟩ := List.mem_map.mp hfield
    by_cases hhidden : source.1 ∈ hidden
    · rw [if_pos hhidden]
      exact .str _
    · rw [if_neg hhidden]
      exact ih source hsource (hproper.2 source hsource)
  | _ => simpa [maskFields] using hproper

theorem maskPlain_eq (data : ProperValue) :
    maskPlain data.value = maskFields SENSITIVE_DATA_FIELDS STRING_TO_REPLACE data.value := by
  obtain ⟨value, hproper⟩ := data
  cases value with
  | obj fields => exact mask_value hproper (Or.inl ⟨fields, rfl⟩)
  | arr items => exact mask_value hproper (Or.inr ⟨items, rfl⟩)
  | _ => simp [maskPlain, maskFields]

/-- Data that may differ without the logs telling. -/
def Data.Agrees : Data → Data → Prop
  | .undefined, .undefined => True
  | .binary content, .binary other => maskBuffer content = maskBuffer other
  | .plain data, .plain other => Agree SENSITIVE_DATA_FIELDS data.value other.value
  | _, _ => False

def ThrownError.Agrees (error other : ThrownError) : Prop :=
  error.name = other.name ∧ error.message = other.message ∧
    Agree SENSITIVE_DATA_FIELDS (.obj error.fields) (.obj other.fields)

/-- Requests of one user to one path, whatever follows the path in their URLs. -/
structure Request.Agrees (request other : Request) : Prop where
  method : request.method = other.method
  routeUrl : request.routeUrl = other.routeUrl
  originalUrl : urlPath request.originalUrl = urlPath other.originalUrl
  url : urlPath request.url = urlPath other.url
  params : request.params.Agrees other.params
  query : request.query.Agrees other.query
  body : request.body.Agrees other.body
  user : request.user.bind (·.clientId) = other.user.bind (·.clientId)

/-- Results that agree, or errors that do. -/
def HandledAlike : Except ThrownError Data → Except ThrownError Data → Prop
  | .ok data, .ok other => data.Agrees other
  | .error error, .error other => error.Agrees other
  | _, _ => False

/-- The text of data in a request is the same exactly for data that agree. -/
theorem parseRequestDataToString_plain_iff (data other : ProperValue) :
    parseRequestDataToString (.plain data) = parseRequestDataToString (.plain other) ↔
      Agree SENSITIVE_DATA_FIELDS data.value other.value := by
  rw [parseRequestDataToString, parseRequestDataToString, agree_iff_mask STRING_TO_REPLACE, maskPlain_eq, maskPlain_eq]
  constructor
  · intro h
    exact stringify_inj (maskFields_proper data.proper).keysOnce (maskFields_proper other.proper).keysOnce h
  · intro h
    rw [h]

theorem Data.Agrees.request {data other : Data} (h : data.Agrees other) :
    parseRequestDataToString data = parseRequestDataToString other := by
  cases data <;> cases other <;> simp only [Data.Agrees] at h
  · rfl
  · rw [parseRequestDataToString, h, parseRequestDataToString]
  · exact (parseRequestDataToString_plain_iff _ _).mpr h

theorem Data.Agrees.response {data other : Data} (h : data.Agrees other) :
    parseResponseDataToString data = parseResponseDataToString other := by
  cases data <;> cases other <;> simp only [Data.Agrees] at h
  · rfl
  · rw [parseResponseDataToString, h, parseResponseDataToString]
  · rw [parseResponseDataToString, parseResponseDataToString, maskPlain_eq, maskPlain_eq,
      (agree_iff_mask STRING_TO_REPLACE _ _).mp h]

theorem ThrownError.Agrees.text {error other : ThrownError} (h : error.Agrees other) :
    parseErrorToString error = parseErrorToString other := by
  obtain ⟨hname, hmessage, hfields⟩ := h
  rw [parseErrorToString, parseErrorToString, checkFieldsExistence_eq_of_agree hfields, hname, hmessage]

theorem Request.Agrees.path {request other : Request} (h : request.Agrees other) :
    getRequestPath request = getRequestPath other := by
  simp only [getRequestPath, request_interface.path, h.routeUrl, h.originalUrl, h.url]

theorem Request.Agrees.route {request other : Request} (h : request.Agrees other) :
    routeText request = routeText other := by
  simp only [routeText, h.method, h.path]

theorem Request.Agrees.requested {request other : Request} (h : request.Agrees other) :
    requested request = requested other := by
  unfold response_interceptor.requested
  rw [h.route, h.params.request, h.query.request, h.body.request, h.user]

theorem Request.Agrees.responding {request other : Request} (h : request.Agrees other) (timestamp : String)
    (text : Except String String) : responding request timestamp text = responding other timestamp text := by
  unfold response_interceptor.responding
  rw [h.route]

theorem handledText_eq_of_agrees {handled handled' : Except ThrownError Data} (h : HandledAlike handled handled') :
    handledText handled = handledText handled' := by
  cases handled <;> cases handled' <;> simp only [HandledAlike] at h
  · rw [handledText, handledText, h.text]
  · rw [handledText, handledText, h.response]

/-- What an exchange leaves in the logs tells nothing of what stands in the sensitive fields
of its params, query, body, result and error, nor of the query in its URLs. -/
theorem intercept_eq_of_agrees {request other : Request} (hrequest : request.Agrees other)
    {handled handled' : Except ThrownError Data} (hhandled : HandledAlike handled handled') (timestamp : String) :
    intercept request timestamp handled = intercept other timestamp handled' := by
  rw [intercept, intercept, hrequest.requested, hrequest.responding, handledText_eq_of_agrees hhandled]

theorem proper_field (key text : String) : (Value.obj [(key, .str text)]).Proper := by
  simp [Value.proper_obj_iff, Value.Proper.str]

/-- The body of a login, or the answer to one. -/
def field (key text : String) : Data :=
  .plain ⟨.obj [(key, .str text)], proper_field key text⟩

theorem agrees_field {key : String} (hkey : key ∈ SENSITIVE_DATA_FIELDS) (text other : String) :
    (field key text).Agrees (field key other) := by
  simp [Data.Agrees, field, Agree, AgreeFields, hkey]

def login (password : String) : Request where
  method := "POST"
  routeUrl := some "/users/login"
  originalUrl := "/users/login?token=" ++ password
  url := "/users/login?token=" ++ password
  params := .undefined
  query := field "token" password
  body := field "password" password
  user := none

theorem intercept_eq_of_agrees_login :
    intercept (login "hunter2") "12" (.ok (field "token" "abc")) =
      intercept (login "letmein") "12" (.ok (field "token" "def")) := by
  apply intercept_eq_of_agrees
  · constructor
    · rfl
    · rfl
    · simp [login, urlPath]
    · simp [login, urlPath]
    · trivial
    · exact agrees_field (by decide) _ _
    · exact agrees_field (by decide) _ _
    · rfl
  · exact agrees_field (by decide) _ _

end node_backend.response_interceptor
