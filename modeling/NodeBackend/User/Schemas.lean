import NodeBackend.Common.RegexConstants
import NodeBackend.User.Writes

namespace node_backend.user_schemas

open js
open node_backend.user_service node_backend.user_usecases

/-- What createUserSchema and updateUserSchema promise of the fields that the use
cases take apart. -/
structure Accepted (data : UserInput) : Prop where
  password : ∀ text ∈ data.password, regex_constants.passwordPattern.regex.test (units text) = true
  theme : ThemeAllowed data

theorem ne_empty_of_passwordPattern {text : String}
    (h : regex_constants.passwordPattern.regex.test (units text) = true) : text ≠ "" := by
  rintro rfl
  obtain ⟨_, hbody⟩ := (regex_constants.test_passwordPattern (units "")).mp h
  exact hbody

end node_backend.user_schemas
