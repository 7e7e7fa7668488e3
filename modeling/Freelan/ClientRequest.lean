import Freelan.Client
import Freelan.Decimal

/-! # The client's requests

`client::perform_request` clears `m_data`, lets libcurl run the request, which hands the body
to `read_data` in as many buffers as it likes, and then decodes `m_data` with `json_to_values`
when the server answered 200 with `application/json`. `get_server_information` sends a GET to
`/api/information` and reads the server's name and version from the map with
`assert_has_value`. libcurl and the server are not modelled: what `perform()` did is a
parameter, a `Response` or the exception it threw.

`getServerInformation_valuesToJson`: a server that writes its name and version with
`values_to_json` is read back exactly, however the body is cut into buffers.
-/

namespace Freelan

/-- `server_configuration::server_protocol_type`. -/
inductive ServerProtocol where
  | http
  | https
deriving DecidableEq

/-- `server_protocol_to_scheme`. -/
def serverProtocolToScheme : ServerProtocol → List UInt8
  | .http => asciiBytes "http://"
  | .https => asciiBytes "https://"

/-! ## Reading values -/

/-- `has_value`: the value stored under `key` (the `true` return and the out-parameter), or
`none` (the `false` return). -/
def hasValue (values : ValuesType) (key : List UInt8) : Option (List UInt8) := values.find key

/-- `assert_has_value` for a `std::string`. -/
def assertHasValue (values : ValuesType) (key : List UInt8) : Except Exception (List UInt8) :=
  match hasValue values key with
  | some value => .ok value
  | none => .error (.runtimeError (asciiBytes "Missing required value \"" ++ key ++ asciiBytes "\"."))

/-- `assert_has_value<unsigned int>`: the string, then `boost::lexical_cast<unsigned int>` on its
`char`s. -/
def assertHasValueUInt (values : ValuesType) (key : List UInt8) : Except Exception UInt32 := do
  let str ← assertHasValue values key
  lexicalCastUInt (str.map fun b => Char.ofNat b.toNat)

theorem assertHasValue_of_find {values : ValuesType} {key value : List UInt8}
    (h : values.find key = some value) : assertHasValue values key = .ok value := by
  simp [assertHasValue, hasValue, h]

theorem byteChars_asciiBytes_repr (n : Nat) :
    (asciiBytes (Nat.repr n)).map (fun b => Char.ofNat b.toNat) = Nat.toDigits 10 n := by
  have hd : ∀ d < 10, Char.ofNat (Nat.digitChar d).toNat.toUInt8.toNat = Nat.digitChar d := by
    decide
  rw [asciiBytes, List.map_map]
  refine (List.map_congr_left fun c hc => ?_).trans (List.map_id _)
  obtain ⟨d, hd10, rfl⟩ := mem_toDigits (by decide) hc
  exact hd d hd10

theorem assertHasValueUInt_of_find {values : ValuesType} {key : List UInt8} {p : UInt32}
    (h : values.find key = some (asciiBytes (Nat.repr p.toNat))) :
    assertHasValueUInt values key = .ok p := by
  rw [assertHasValueUInt, assertHasValue_of_find h, ok_bind, byteChars_asciiBytes_repr,
    lexicalCastUInt_toDigits]

/-! ## Requests -/

/-- The request `perform()` sends: a GET or a POST, the URL, and the POST's body. -/
structure Request where
  post : Bool
  url : List UInt8
  body : List UInt8

/-- What `perform()` leaves behind: the buffers libcurl handed the write callback, in order,
then `get_response_code()` and `get_content_type()`. -/
structure Response where
  chunks : List (List UInt8)
  responseCode : Int
  contentType : List UInt8

/-- `client::read_data`: `m_data.append(_data, data_len)`, returning `data_len`. -/
def readData (data buf : List UInt8) : List UInt8 × Nat := (data ++ buf, buf.length)

/-- `client::perform_request`, given what `perform()` did: `m_data.clear()`, then `read_data` for
each buffer, then the checks of the response code and the content type. -/
def performRequest (response : Except Exception Response) : Except Exception ValuesType := do
  let response ← response
  let data := response.chunks.foldl (fun data buf => (readData data buf).1) []
  if response.responseCode ≠ 200 then .error (.runtimeError (asciiBytes "HTTP request failed."))
  else if response.contentType ≠ asciiBytes "application/json" then
    .error (.runtimeError (asciiBytes "Unexpected server error."))
  else jsonToValues data

/-- `client::perform_get_request`. -/
def performGetRequest (perform : Request → Except Exception Response) (url : List UInt8) :
    Except Exception ValuesType :=
  performRequest (perform ⟨false, url, []⟩)

/-- `client::perform_post_request`: the body is `values_to_json(parameters)`. -/
def performPostRequest (perform : Request → Except Exception Response) (url : List UInt8)
    (parameters : ValuesType) : Except Exception ValuesType :=
  performRequest (perform ⟨true, url, valuesToJson parameters⟩)

/-- `client::get_server_information`, with `m_scheme` and the text of the configured host. -/
def getServerInformation (scheme host : List UInt8) (perform : Request → Except Exception Response) :
    Except Exception (List UInt8 × UInt32 × UInt32) := do
  let url := scheme ++ host ++ asciiBytes "/api/information"
  let values ← performGetRequest perform url
  let name ← assertHasValue values (asciiBytes "name")
  let major ← assertHasValueUInt values (asciiBytes "major")
  let minor ← assertHasValueUInt values (asciiBytes "minor")
  pure (name, major, minor)

/-- `client::connect`: the scheme the constructor chose, then `get_server_information`, whose
results are dropped. -/
def connect (protocol : ServerProtocol) (host : List UInt8)
    (perform : Request → Except Exception Response) : Except Exception Unit :=
  (fun _ => ()) <$> getServerInformation (serverProtocolToScheme protocol) host perform

theorem foldl_readData (chunks : List (List UInt8)) (data : List UInt8) :
    chunks.foldl (fun data buf => (readData data buf).1) data = data ++ chunks.flatten := by
  induction chunks generalizing data with
  | nil => simp
  | cons buf chunks ih => rw [List.foldl_cons, ih, List.flatten_cons, readData, List.append_assoc]

theorem performRequest_json (chunks : List (List UInt8)) :
    performRequest (.ok ⟨chunks, 200, asciiBytes "application/json"⟩) = jsonToValues chunks.flatten := by
  simp [performRequest, foldl_readData]

/-- A server that writes its name and version with `values_to_json`, in a map with no NUL and
any other keys, is read back exactly by `get_server_information`, however libcurl cut the body
into buffers. -/
theorem getServerInformation_valuesToJson {m : ValuesType} (hm : NulFree m) {name : List UInt8}
    {major minor : UInt32} (hname : m.find (asciiBytes "name") = some name)
    (hmajor : m.find (asciiBytes "major") = some (asciiBytes (Nat.repr major.toNat)))
    (hminor : m.find (asciiBytes "minor") = some (asciiBytes (Nat.repr minor.toNat)))
    {scheme host : List UInt8} {perform : Request → Except Exception Response}
    {chunks : List (List UInt8)}
    (hp : perform ⟨false, scheme ++ host ++ asciiBytes "/api/information", []⟩ =
      .ok ⟨chunks, 200, asciiBytes "application/json"⟩)
    (hc : chunks.flatten = valuesToJson m) :
    getServerInformation scheme host perform = .ok (name, major, minor) := by
  have hvalues : performGetRequest perform (scheme ++ host ++ asciiBytes "/api/information") =
      .ok m := by
    rw [performGetRequest, hp, performRequest_json, hc, jsonToValues_valuesToJson_eq,
      foldl_insert_cBytes hm]
  simp only [getServerInformation, hvalues, ok_bind, assertHasValue_of_find hname,
    assertHasValueUInt_of_find hmajor, assertHasValueUInt_of_find hminor]
  rfl

/-- The server `srv` at version 2.1, its answer cut into two buffers. -/
theorem getServerInformation_valuesToJson_srv :
    NulFree (((ValuesType.empty.insert (asciiBytes "name") (asciiBytes "srv")).insert
        (asciiBytes "major") (asciiBytes "2")).insert (asciiBytes "minor") (asciiBytes "1")) ∧
      getServerInformation (asciiBytes "https://") (asciiBytes "host") (fun _ => .ok
        ⟨[(valuesToJson (((ValuesType.empty.insert (asciiBytes "name") (asciiBytes "srv")).insert
            (asciiBytes "major") (asciiBytes "2")).insert (asciiBytes "minor") (asciiBytes "1"))).take 7,
          (valuesToJson (((ValuesType.empty.insert (asciiBytes "name") (asciiBytes "srv")).insert
            (asciiBytes "major") (asciiBytes "2")).insert (asciiBytes "minor") (asciiBytes "1"))).drop 7],
          200, asciiBytes "application/json"⟩) = .ok (asciiBytes "srv", 2, 1) := by
  have hm : NulFree (((ValuesType.empty.insert (asciiBytes "name") (asciiBytes "srv")).insert
      (asciiBytes "major") (asciiBytes "2")).insert (asciiBytes "minor") (asciiBytes "1")) := by
    unfold NulFree; decide
  exact ⟨hm, getServerInformation_valuesToJson hm (by decide) (by decide) (by decide) rfl
    (by simp only [List.flatten_cons, List.flatten_nil, List.append_nil, List.take_append_drop])⟩

end Freelan
