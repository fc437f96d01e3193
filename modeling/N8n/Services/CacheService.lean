import N8n.Library.JsonText
import N8n.Library.OrderedMap
import N8n.Library.Runs

/-! # The hashes of the cache

`packages/cli/src/services/cache/`: the cache service keeps values under keys, in
Redis or in memory.  A value is a JSON value, of which Redis keeps the text.
That values expire or are evicted is left out, and so are the properties that an
object inherits.
-/

namespace N8n.CacheService

open Json (Value)

inductive CacheError where
  | wrongType
  | wrongNumberOfArguments
  | invalidJson
deriving DecidableEq, Repr

/-- The argument of `setHash`; a field may be `undefined`. -/
abbrev Hash := OrderedMap String (Option Value)

def isCacheable : Option Value → Bool
  | none | some (.scalar .null) => false
  | some _ => true

/-! ## The store of Redis -/

namespace Redis

inductive Entry where
  | string (text : List Char)
  | hash (fields : OrderedMap String (List Char))

abbrev Store := OrderedMap String Entry

def hashAt (store : Store) (key : String) : Except CacheError (OrderedMap String (List Char)) :=
  match store.get? key with
  | none => .ok ∅
  | some (.hash fields) => .ok fields
  | some (.string _) => .error .wrongType

def jsonParse (text : List Char) : Except CacheError Value :=
  match Json.parse text with
  | some value => .ok value
  | none => .error .invalidJson

def getVal : Option Value → List Char
  | some value => Json.stringify value
  | none => "\"undefined\"".toList

def get (store : Store) (key : String) : Except CacheError (Option Value) :=
  match store.get? key with
  | none => .ok none
  | some (.string text) => some <$> jsonParse text
  | some (.hash _) => .error .wrongType

def set (store : Store) (key : String) (value : Value) : Store :=
  OrderedMap.set store key (.string (getVal (some value)))

def hget (store : Store) (key field : String) : Except CacheError (Option Value) := do
  match (← hashAt store key).get? field with
  | none => return none
  | some text => return some (← jsonParse text)

def hgetall (store : Store) (key : String) : Except CacheError Value := do
  return .object (← (← hashAt store key).entries.mapM fun (field, text) => return (field, ← jsonParse text))

def hset (store : Store) (key : String) (fieldValueRecord : Hash) : Except CacheError Store := do
  -- the command takes at least one field
  if fieldValueRecord.entries.isEmpty then throw .wrongNumberOfArguments
  let fields ← hashAt store key
  return OrderedMap.set store key (.hash (fields.spread (fieldValueRecord.mapValues getVal)))

/-- A hash that has lost its last field is no longer there. -/
def hdel (store : Store) (key field : String) : Except CacheError Store := do
  let fields := (← hashAt store key).erase field
  return if fields.entries.isEmpty then store.erase key else OrderedMap.set store key (.hash fields)

end Redis

/-! ## The service -/

inductive Cache where
  | redis (store : Redis.Store)
  | memory (store : OrderedMap String Value)

structure Options where
  fallbackValue : Option Value := none
  /-- What the function comes back with; `none` is `undefined`. -/
  refreshFn : Option (String → Option Value) := none

def storeGet : Cache → String → Except CacheError (Option Value)
  | .redis store, key => Redis.get store key
  | .memory store, key => .ok (store.get? key)

def storeSet : Cache → String → Value → Cache
  | .redis store, key, value => .redis (Redis.set store key value)
  | .memory store, key, value => .memory (store.set key value)

def set (cache : Cache) (key : String) (value : Option Value) : Cache :=
  match value with
  | none => cache
  -- what is truthy is cacheable
  | some value => if key = "" || !value.truthy then cache else storeSet cache key value

/-- What the getters do after a miss. -/
def refresh (cache : Cache) (key : String) (options : Options) : Option Value × Cache :=
  match options.refreshFn with
  | some refreshFn => (refreshFn key, set cache key (refreshFn key))
  | none => (options.fallbackValue, cache)

def get (cache : Cache) (key : String) (options : Options) : Except CacheError (Option Value × Cache) := do
  if key = "" then return (none, cache)
  match ← storeGet cache key with
  | some value => return (some value, cache)
  | none => return refresh cache key options

/-- `value ?? {}` -/
def orEmpty : Option Value → Value
  | none | some (.scalar .null) => .object []
  | some value => value

/-- `Object.assign(hashObject, hash)`: of two fields of one name the later one counts. -/
def assign (hash : Hash) : Value → Value
  | .object fields => .object (fields ++ hash.entries.filterMap fun (field, value) => value.map (field, ·))
  | value => value

/-- `delete hashObject[hashKey]` -/
def deleteField (hashKey : String) : Value → Value
  | .object fields => .object (fields.filter fun field => field.1 ≠ hashKey)
  | value => value

def setHash (cache : Cache) (key : String) (hash : Hash) : Except CacheError Cache := do
  if key = "" then return cache
  if hash.values.any fun value => !isCacheable value then return cache
  match cache with
  | .redis store => return .redis (← Redis.hset store key hash)
  | .memory _ =>
    let (value, cache) ← get cache key {}
    return set cache key (some (assign hash (orEmpty value)))

def getHash (cache : Cache) (key : String) (options : Options) : Except CacheError (Option Value × Cache) := do
  let hash ← match cache with
    | .redis store => some <$> Redis.hgetall store key
    | .memory _ => Prod.fst <$> get cache key {}
  match hash with
  | some hash => return (some hash, cache)
  | none => return refresh cache key options

def getHashValue (cache : Cache) (cacheKey hashKey : String) (options : Options) :
    Except CacheError (Option Value × Cache) := do
  let hashValue ← match cache with
    | .redis store => Redis.hget store cacheKey hashKey
    | .memory store => .ok ((store.get? cacheKey).bind (Value.field? hashKey))
  match hashValue with
  | some hashValue => return (some hashValue, cache)
  | none => return refresh cache cacheKey options

def deleteFromHash (cache : Cache) (cacheKey hashKey : String) : Except CacheError Cache := do
  if cacheKey = "" || hashKey = "" then return cache
  match cache with
  | .redis store => return .redis (← Redis.hdel store cacheKey hashKey)
  | .memory store =>
    match ← get cache cacheKey {} with
    | (some hashObject, _) =>
      if hashObject.truthy then return .memory (store.set cacheKey (deleteField hashKey hashObject)) else return cache
    | (none, _) => return cache

/-! ## Calls, and what they write -/

inductive Call where
  | setHash (key : String) (hash : Hash)
  | getHashValue (cacheKey hashKey : String) (options : Options)
  | getHash (key : String) (fallbackValue : Option Value)
  | deleteFromHash (cacheKey hashKey : String)

/-- The cache after a call; a call that fails has changed nothing. -/
def callCache (cache : Cache) : Call → Cache
  | .setHash key hash => (setHash cache key hash).toOption.getD cache
  | .getHashValue cacheKey hashKey options =>
    ((getHashValue cache cacheKey hashKey options).toOption.map Prod.snd).getD cache
  | .getHash key fallbackValue => ((getHash cache key { fallbackValue }).toOption.map Prod.snd).getD cache
  | .deleteFromHash cacheKey hashKey => (deleteFromHash cache cacheKey hashKey).toOption.getD cache

/-- The fields of the hash under each key that were written last and not deleted since. -/
abbrev Fields := String → String → Option Value

def Fields.put (fields : Fields) (key hashKey : String) (value : Option Value) : Fields :=
  Function.update fields key (Function.update (fields key) hashKey value)

/-- A hash with a value that is not cacheable is refused, and so is everything under the empty key. -/
def Fields.call (fields : Fields) : Call → Fields
  | .setHash key hash =>
    if key = "" || hash.values.any fun value => !isCacheable value then fields
    else Function.update fields key fun field => (hash.get? field).getD (fields key field)
  | .getHashValue cacheKey hashKey options =>
    match fields cacheKey hashKey, options.refreshFn with
    | none, some refreshFn =>
      if cacheKey = "" || !isCacheable (refreshFn cacheKey) then fields
      else fields.put cacheKey hashKey (refreshFn cacheKey)
    | _, _ => fields
  | .getHash _ _ => fields
  | .deleteFromHash cacheKey hashKey => if cacheKey = "" then fields else fields.put cacheKey hashKey none

structure State where
  cache : Cache
  fields : Fields

def step (state : State) (call : Call) : State where
  cache := callCache state.cache call
  fields := state.fields.call call

inductive Backend where
  | redis
  | memory
deriving DecidableEq, Repr

def Backend.start : Backend → State
  | redis => { cache := .redis ∅, fields := fun _ _ => none }
  | memory => { cache := .memory ∅, fields := fun _ _ => none }

/-- What the getters return is what was written last and not deleted since. -/
structure RespectsHashes (state : State) : Prop where
  value : ∀ key hashKey, getHashValue state.cache key hashKey {} = .ok (state.fields key hashKey, state.cache)
  hash : ∀ key, ∃ found, getHash state.cache key {} = .ok (found, state.cache) ∧
    ∀ hashKey, found.bind (Value.field? hashKey) = state.fields key hashKey

/-- Nothing is stored by a refresh, and the field with the empty name is not deleted. -/
def Harmless (state : State) : Call → Prop
  | .getHashValue cacheKey hashKey options => state.fields cacheKey hashKey = none → cacheKey ≠ "" →
      ∀ refreshFn ∈ options.refreshFn, isCacheable (refreshFn cacheKey) = false
  | .deleteFromHash cacheKey hashKey => cacheKey ≠ "" → hashKey = "" → state.fields cacheKey hashKey = none
  | _ => True

/-! ## The fields of the hashes -/

theorem bind_field? (value : Option Value) (name : String) :
    value.bind (Value.field? name) = (orEmpty value).field? name := by
  match value with
  | none | some (.scalar .null) => rfl
  | some (.scalar (.bool _)) | some (.scalar (.number _)) | some (.string _) | some (.array _) | some (.object _) => rfl

theorem lastField?_filterMap (hash : Hash) (name : String) :
    Value.lastField? name (hash.entries.filterMap fun (field, value) => value.map (field, ·)) =
      (hash.get? name).join := by
  obtain ⟨entries, nodup⟩ := hash
  induction entries with
  | nil => rfl
  | cons entry rest ih =>
    obtain ⟨field, value⟩ := entry
    rw [List.map_cons, List.nodup_cons] at nodup
    have inRest := ih nodup.2
    simp only [OrderedMap.get?, List.find?_cons] at inRest ⊢
    by_cases same : field = name
    · subst same
      rw [OrderedMap.find?_eq_none_of_notMem nodup.1] at inRest
      cases value with
      | none => simpa using inRest
      | some value => simp [Value.lastField?, inRest]
    · cases value <;> simp [Value.lastField?, inRest, same]

theorem get?_ne_undefined {hash : Hash} (cacheable : hash.values.any (fun value => !isCacheable value) = false)
    (field : String) : hash.get? field ≠ some none := by
  intro found
  have member := OrderedMap.mem_values.mpr ⟨field, OrderedMap.get?_eq_some.mp found⟩
  rw [List.any_eq_false] at cacheable
  exact cacheable none member rfl

/-! ## What the back ends hold -/

/-- The back end holds the fields. -/
def Represents (fields : Fields) : Cache → Prop
  | .redis store => ∀ key, ∃ texts, Redis.hashAt store key = .ok texts ∧
      ∀ field, texts.get? field = (fields key field).map Json.stringify
  | .memory store => store.get? "" = none ∧ ∀ key, ∃ entries, orEmpty (store.get? key) = .object entries ∧
      ∀ field, Value.lastField? field entries = fields key field

section

variable {cache : Cache} {fields : Fields}

theorem jsonParse_stringify (value : Value) : Redis.jsonParse (Json.stringify value) = .ok value := by
  rw [Redis.jsonParse, Json.parse_stringify]

theorem getHashValue_eq (represents : Represents fields cache) (cacheKey hashKey : String) (options : Options) :
    getHashValue cache cacheKey hashKey options =
      .ok (match fields cacheKey hashKey with
        | some value => (some value, cache)
        | none => refresh cache cacheKey options) := by
  cases cache with
  | redis store =>
    obtain ⟨texts, isHash, found⟩ := represents cacheKey
    have read : Redis.hget store cacheKey hashKey = .ok (fields cacheKey hashKey) := by
      simp only [Redis.hget, isHash, found, bind, Except.bind]
      cases fields cacheKey hashKey with
      | none => rfl
      | some value => simp only [Option.map_some, jsonParse_stringify]; rfl
    simp only [getHashValue, read, bind, Except.bind]
    cases fields cacheKey hashKey <;> rfl
  | memory store =>
    obtain ⟨entries, isObject, found⟩ := represents.2 cacheKey
    have read : (store.get? cacheKey).bind (Value.field? hashKey) = fields cacheKey hashKey := by
      rw [bind_field?, isObject, ← found]
      rfl
    simp only [getHashValue, read, bind, Except.bind]
    cases fields cacheKey hashKey <;> rfl

theorem mapM_jsonParse {entries : List (String × List Char)} {values : String → Option Value}
    (texts : ∀ entry ∈ entries, (values entry.1).map Json.stringify = some entry.2) :
    ∃ found, (entries.mapM fun (field, text) => return (field, ← Redis.jsonParse text)) = Except.ok found ∧
      ∀ field, Value.lastField? field found = if field ∈ entries.map Prod.fst then values field else none := by
  induction entries with
  | nil => exact ⟨[], rfl, fun _ => rfl⟩
  | cons entry rest ih =>
    obtain ⟨field, text⟩ := entry
    obtain ⟨found, isFound, reads⟩ :=
      ih fun entry member => texts entry (List.mem_cons_of_mem _ member)
    obtain ⟨value, isValue, isText⟩ := Option.map_eq_some_iff.mp (texts (field, text) List.mem_cons_self)
    simp only at isValue isText
    refine ⟨(field, value) :: found, ?_, ?_⟩
    · rw [List.mapM_cons, isFound, ← isText]
      simp only [jsonParse_stringify]
      rfl
    · intro name
      rw [Value.lastField?, reads]
      by_cases same : field = name
      · subst same
        rw [isValue, if_pos rfl, List.map_cons, if_pos List.mem_cons_self]
        split <;> rfl
      · simp only [same, if_false, Option.or_none, List.map_cons, List.mem_cons, Ne.symm same, false_or]

variable {key : String}

theorem get_memory (store : OrderedMap String Value) (isKey : key ≠ "") :
    get (.memory store) key {} = .ok (store.get? key, .memory store) := by
  simp only [get, isKey, if_false, storeGet]
  cases store.get? key <;> rfl

theorem getHash_eq (represents : Represents fields cache) (key : String) (options : Options) :
    ∃ found, getHash cache key options =
        .ok (match found with
          | some hash => (some hash, cache)
          | none => refresh cache key options) ∧
      ∀ hashKey, found.bind (Value.field? hashKey) = fields key hashKey := by
  cases cache with
  | redis store =>
    obtain ⟨texts, isHash, found⟩ := represents key
    have isText : ∀ entry ∈ texts.entries, (fields key entry.1).map Json.stringify = some entry.2 := by
      intro entry member
      rw [← found, OrderedMap.get?_eq_some.mpr member]
    obtain ⟨entries, isRead, reads⟩ := mapM_jsonParse isText
    refine ⟨some (.object entries), ?_, ?_⟩
    · have read : Redis.hgetall store key = .ok (.object entries) := by
        rw [Redis.hgetall, isHash]
        exact congrArg (Functor.map Value.object) isRead
      simp only [getHash, read, bind, Except.bind]
      rfl
    · intro hashKey
      rw [Option.bind_some, Value.field?, reads, ite_eq_left_iff]
      intro absent
      have noText := OrderedMap.get?_eq_none.mpr absent
      rw [found, Option.map_eq_none_iff] at noText
      exact noText.symm
  | memory store =>
    obtain ⟨entries, isObject, found⟩ := represents.2 key
    have read : Prod.fst <$> get (.memory store) key {} = .ok (store.get? key) := by
      by_cases isEmpty : key = ""
      · rw [isEmpty, represents.1]
        rfl
      · rw [get_memory store isEmpty]
        rfl
    refine ⟨store.get? key, ?_, ?_⟩
    · simp only [getHash, read, bind, Except.bind]
      cases store.get? key <;> rfl
    · intro hashKey
      rw [bind_field?, isObject, ← found]
      rfl

/-! ## What a call does to the back ends -/

theorem Represents.redis_update {store store' : Redis.Store} {texts : OrderedMap String (List Char)}
    {hash : String → Option Value} (represents : Represents fields (.redis store))
    (written : ∀ key', Redis.hashAt store' key' = if key' = key then .ok texts else Redis.hashAt store key')
    (holds : ∀ field, texts.get? field = (hash field).map Json.stringify) :
    Represents (Function.update fields key hash) (.redis store') := by
  intro key'
  by_cases same : key' = key
  · refine ⟨texts, by rw [written, if_pos same], ?_⟩
    rw [same, Function.update_self]
    exact holds
  · obtain ⟨texts', isHash, found⟩ := represents key'
    refine ⟨texts', by rw [written, if_neg same, isHash], ?_⟩
    rw [Function.update_of_ne same]
    exact found

theorem Represents.memory_update {store : OrderedMap String Value} {entries : List (String × Value)}
    {hash : String → Option Value} (represents : Represents fields (.memory store)) (isKey : key ≠ "")
    (holds : ∀ field, Value.lastField? field entries = hash field) :
    Represents (Function.update fields key hash) (.memory (store.set key (.object entries))) := by
  refine ⟨by rw [OrderedMap.get?_set_of_ne _ _ (Ne.symm isKey), represents.1], fun key' => ?_⟩
  by_cases same : key' = key
  · refine ⟨entries, by rw [same, OrderedMap.get?_set_self]; rfl, ?_⟩
    rw [same, Function.update_self]
    exact holds
  · rw [OrderedMap.get?_set_of_ne _ _ same, Function.update_of_ne same]
    exact represents.2 key'

theorem hashAt_set (store : Redis.Store) (key key' : String) (texts : OrderedMap String (List Char)) :
    Redis.hashAt (OrderedMap.set store key (.hash texts)) key' =
      if key' = key then .ok texts else Redis.hashAt store key' := by
  by_cases same : key' = key
  · rw [if_pos same, Redis.hashAt, same, OrderedMap.get?_set_self]
  · rw [if_neg same, Redis.hashAt, OrderedMap.get?_set_of_ne _ _ same, Redis.hashAt]

theorem hashAt_erase (store : Redis.Store) (key key' : String) :
    Redis.hashAt (store.erase key) key' = if key' = key then .ok ∅ else Redis.hashAt store key' := by
  by_cases same : key' = key
  · rw [if_pos same, Redis.hashAt, same, OrderedMap.get?_erase_self]
  · rw [if_neg same, Redis.hashAt, OrderedMap.get?_erase_of_ne _ same, Redis.hashAt]

theorem represents_setHash (represents : Represents fields cache) (key : String) (hash : Hash) :
    Represents (fields.call (.setHash key hash)) (callCache cache (.setHash key hash)) := by
  rw [callCache, Fields.call]
  by_cases isEmpty : key = ""
  · simp only [setHash, isEmpty, ↓reduceIte]
    exact represents
  cases refused : hash.values.any fun value => !isCacheable value with
  | true =>
    simp only [setHash, isEmpty, refused, ↓reduceIte, decide_false, Bool.or_true]
    exact represents
  | false =>
    have isDefined := get?_ne_undefined refused
    simp only [setHash, isEmpty, refused, ↓reduceIte, decide_false, Bool.or_false, Bool.false_eq_true]
    cases cache with
    | redis store =>
      obtain ⟨texts, isHash, found⟩ := represents key
      by_cases noField : hash.entries.isEmpty
      · have unchanged : (fun field => (hash.get? field).getD (fields key field)) = fields key := by
          funext field
          rw [OrderedMap.get?, List.isEmpty_iff.mp noField]
          rfl
        simp only [unchanged, Function.update_eq_self, Redis.hset, noField, ↓reduceIte]
        exact represents
      · simp only [Redis.hset, noField, isHash]
        apply represents.redis_update (hashAt_set store key · _)
        intro field
        rw [OrderedMap.get?_spread, OrderedMap.get?_mapValues, found]
        cases given : hash.get? field with
        | none => rfl
        | some value =>
          cases value with
          | none => exact absurd given (isDefined field)
          | some value => rfl
    | memory store =>
      obtain ⟨entries, isObject, found⟩ := represents.2 key
      have written : set (.memory store) key (some (assign hash (.object entries))) =
          .memory (store.set key (assign hash (.object entries))) := by
        rw [set, assign, Value.truthy, Bool.not_true, Bool.or_false, decide_eq_false isEmpty]
        rfl
      simp only [get_memory store isEmpty, bind, Except.bind, isObject, written]
      apply represents.memory_update isEmpty
      intro field
      rw [Value.lastField?_append, lastField?_filterMap, found]
      cases given : hash.get? field with
      | none => rfl
      | some value =>
        cases value with
        | none => exact absurd given (isDefined field)
        | some value => rfl

theorem put_none {key hashKey : String} (absent : fields key hashKey = none) :
    fields.put key hashKey none = fields := by
  rw [Fields.put, ← absent, Function.update_eq_self, Function.update_eq_self]

theorem represents_deleteFromHash (represents : Represents fields cache) (cacheKey hashKey : String)
    (harmless : cacheKey ≠ "" → hashKey = "" → fields cacheKey hashKey = none) :
    Represents (fields.call (.deleteFromHash cacheKey hashKey))
      (callCache cache (.deleteFromHash cacheKey hashKey)) := by
  rw [callCache, Fields.call]
  by_cases isEmpty : cacheKey = ""
  · simp only [deleteFromHash, isEmpty, ↓reduceIte, decide_true, Bool.true_or]
    exact represents
  by_cases noName : hashKey = ""
  · simp only [deleteFromHash, isEmpty, noName, ↓reduceIte, decide_true, Bool.or_true]
    rw [put_none (noName ▸ harmless isEmpty noName)]
    exact represents
  simp only [deleteFromHash, isEmpty, noName, ↓reduceIte, decide_false, Bool.or_false, Bool.false_eq_true]
  cases cache with
  | redis store =>
    obtain ⟨texts, isHash, found⟩ := represents cacheKey
    have holds : ∀ field, (texts.erase hashKey).get? field =
        (Function.update (fields cacheKey) hashKey none field).map Json.stringify := by
      intro field
      by_cases same : field = hashKey
      · rw [same, OrderedMap.get?_erase_self, Function.update_self]
        rfl
      · rw [OrderedMap.get?_erase_of_ne _ same, Function.update_of_ne same, found]
    by_cases nothingLeft : (texts.erase hashKey).entries.isEmpty
    · have isEmptyHash : texts.erase hashKey = ∅ := OrderedMap.ext_entries (List.isEmpty_iff.mp nothingLeft)
      simp only [Redis.hdel, isHash, nothingLeft, bind, Except.bind, ↓reduceIte]
      rw [isEmptyHash] at holds
      exact represents.redis_update (hashAt_erase store cacheKey) holds
    · simp only [Redis.hdel, isHash, nothingLeft, bind, Except.bind, Bool.false_eq_true, ↓reduceIte]
      exact represents.redis_update (hashAt_set store cacheKey · _) holds
  | memory store =>
    obtain ⟨entries, isObject, found⟩ := represents.2 cacheKey
    simp only [get_memory store isEmpty, bind, Except.bind]
    have absent (isNil : entries = []) : Represents (fields.put cacheKey hashKey none) (.memory store) := by
      rw [put_none (by rw [← found, isNil]; rfl)]
      exact represents
    match stored : store.get? cacheKey, isObject with
    | none, isObject => exact absent (Value.object.inj isObject).symm
    | some (.scalar .null), isObject => exact absent (Value.object.inj isObject).symm
    | some (.object held), isObject =>
      obtain rfl := Value.object.inj isObject
      simp only [Value.truthy, ↓reduceIte]
      apply represents.memory_update isEmpty
      intro field
      rw [Value.lastField?_filter, found, Function.update_apply]

theorem set_of_not_cacheable (cache : Cache) {value : Option Value} (nothing : key = "" ∨ isCacheable value = false) :
    set cache key value = cache := by
  match value, nothing with
  | none, _ => rfl
  | some value, .inl isEmpty => rw [set, decide_eq_true isEmpty, Bool.true_or, if_pos rfl]
  | some (.scalar .null), .inr _ => rw [set, Value.truthy, Bool.not_false, Bool.or_true, if_pos rfl]

theorem represents_getHashValue (represents : Represents fields cache) (cacheKey hashKey : String) (options : Options)
    (harmless : fields cacheKey hashKey = none → cacheKey ≠ "" →
      ∀ refreshFn ∈ options.refreshFn, isCacheable (refreshFn cacheKey) = false) :
    Represents (fields.call (.getHashValue cacheKey hashKey options))
      (callCache cache (.getHashValue cacheKey hashKey options)) := by
  rw [callCache, Fields.call, getHashValue_eq represents]
  match isValue : fields cacheKey hashKey, isFn : options.refreshFn with
  | some value, _ => exact represents
  | none, none =>
    simp only [refresh, isFn]
    exact represents
  | none, some refreshFn =>
    have nothing : cacheKey = "" ∨ isCacheable (refreshFn cacheKey) = false := by
      by_cases isEmpty : cacheKey = ""
      · exact .inl isEmpty
      · exact .inr (harmless isValue isEmpty refreshFn isFn)
    have refused : (decide (cacheKey = "") || !isCacheable (refreshFn cacheKey)) = true := by
      obtain isEmpty | notCacheable := nothing
      · rw [decide_eq_true isEmpty, Bool.true_or]
      · rw [notCacheable, Bool.not_false, Bool.or_true]
    simp only [refresh, isFn, set_of_not_cacheable cache nothing, refused, ↓reduceIte]
    exact represents

variable {state : State}

theorem represents_step {call : Call} (harmless : Harmless state call)
    (represents : Represents state.fields state.cache) :
    Represents (step state call).fields (step state call).cache := by
  cases call with
  | setHash key hash => exact represents_setHash represents key hash
  | getHashValue cacheKey hashKey options => exact represents_getHashValue represents cacheKey hashKey options harmless
  | deleteFromHash cacheKey hashKey => exact represents_deleteFromHash represents cacheKey hashKey harmless
  | getHash key fallbackValue =>
    obtain ⟨found, isFound, _⟩ := getHash_eq represents key { fallbackValue }
    simp only [step, callCache, isFound]
    cases found <;> exact represents

theorem respectsHashes_of_represents (represents : Represents state.fields state.cache) :
    RespectsHashes state := by
  constructor
  · intro key hashKey
    rw [getHashValue_eq represents]
    cases state.fields key hashKey <;> rfl
  · intro key
    obtain ⟨found, isFound, reads⟩ := getHash_eq represents key {}
    refine ⟨found, ?_, reads⟩
    rw [isFound]
    cases found <;> rfl

@[simp] theorem put_self (fields : Fields) (key hashKey : String) (value : Option Value) :
    fields.put key hashKey value key hashKey = value := by
  rw [Fields.put, Function.update_self, Function.update_self]

theorem getHashValue_set (represents : Represents fields cache) {cacheKey hashKey : String} {value : Value}
    (absent : fields cacheKey hashKey = none) (result : Cache) :
    getHashValue (set cache cacheKey (some value)) cacheKey hashKey {} ≠ .ok (some value, result) := by
  cases unchanged : decide (cacheKey = "") || !value.truthy with
  | true =>
    rw [set, unchanged, if_pos rfl, getHashValue_eq represents, absent]
    simp [refresh]
  | false =>
    rw [set, unchanged, if_neg Bool.false_ne_true]
    cases cache with
    | redis store =>
      have isString : Redis.hget (Redis.set store cacheKey value) cacheKey hashKey = .error .wrongType := by
        rw [Redis.hget, Redis.hashAt, Redis.set, OrderedMap.get?_set_self]
        rfl
      simp [getHashValue, storeSet, isString, bind, Except.bind]
    | memory store =>
      simp only [getHashValue, storeSet, OrderedMap.get?_set_self, Option.bind_some, bind, Except.bind]
      intro same
      cases isField : value.field? hashKey with
      | none => simp [isField, refresh, pure, Except.pure] at same
      | some other =>
        simp only [isField, pure, Except.pure, Except.ok.injEq, Prod.mk.injEq, Option.some.injEq] at same
        exact value.field?_ne_self hashKey (same.1 ▸ isField)

theorem not_respectsHashes_step {call : Call} (harmful : ¬ Harmless state call)
    (represents : Represents state.fields state.cache) : ¬ RespectsHashes (step state call) := by
  intro respects
  cases call with
  | setHash | getHash => exact harmful trivial
  | getHashValue cacheKey hashKey options =>
    simp only [Harmless, not_forall] at harmful
    obtain ⟨absent, isKey, refreshFn, isFn, cacheable⟩ := harmful
    obtain ⟨value, isValue⟩ : ∃ value, refreshFn cacheKey = some value := by
      cases isValue : refreshFn cacheKey with
      | none => simp [isValue, isCacheable] at cacheable
      | some value => exact ⟨value, rfl⟩
    have read := respects.value cacheKey hashKey
    rw [Bool.not_eq_false] at cacheable
    have isFn : options.refreshFn = some refreshFn := isFn
    simp only [step, callCache, getHashValue_eq represents, Fields.call, absent, isFn, refresh, isKey, cacheable,
      decide_false, Bool.not_true, Bool.or_false, Bool.false_eq_true, ↓reduceIte, put_self] at read
    rw [isValue] at read
    exact getHashValue_set represents absent _ read
  | deleteFromHash cacheKey hashKey =>
    simp only [Harmless, not_forall] at harmful
    obtain ⟨isKey, noName, present⟩ := harmful
    have read := respects.value cacheKey hashKey
    have unchanged : callCache state.cache (.deleteFromHash cacheKey hashKey) = state.cache := by
      simp only [callCache, deleteFromHash, isKey, noName, decide_false, decide_true, Bool.or_true, ↓reduceIte]
      rfl
    simp only [step, unchanged, getHashValue_eq represents, Fields.call, isKey, ↓reduceIte, put_self] at read
    obtain ⟨value, isValue⟩ := Option.ne_none_iff_exists'.mp present
    simp [isValue] at read

theorem represents_start (backend : Backend) : Represents backend.start.fields backend.start.cache := by
  cases backend with
  | redis => exact fun key => ⟨∅, rfl, fun _ => rfl⟩
  | memory => exact ⟨rfl, fun key => ⟨[], rfl, fun _ => rfl⟩⟩

end

/-- In a run of calls the hashes are respected exactly as long as no refresh stores anything. -/
theorem respectsHashes_iff (backend : Backend) (calls : List Call) :
    Runs.Always step RespectsHashes backend.start calls ↔ Runs.Every step Harmless backend.start calls := by
  apply @Runs.always_iff_every_of_lost _ _ step (fun _ _ => True) Harmless
    (fun state => Represents state.fields state.cache) RespectsHashes
  · exact fun state => respectsHashes_of_represents
  · exact fun state call _ harmless => represents_step harmless
  · exact fun state call _ harmful => not_respectsHashes_step harmful
  · exact represents_start backend
  · exact Runs.every_true _ _

/-- A miss of one field loses the other ones. -/
theorem not_respectsHashes_refreshed : ¬ Runs.Always step RespectsHashes Backend.memory.start
    [.setHash "users" ⟨[("ann", some (.string "a"))], by decide⟩,
      .getHashValue "users" "ben" { refreshFn := some fun _ => some (.string "b") }] := by
  intro always
  have read := always.2.2.value "users" "ann"
  cases read

end N8n.CacheService
