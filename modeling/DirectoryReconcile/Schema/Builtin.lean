import DirectoryReconcile.Schema.Matching
import DirectoryReconcile.Schema.Principal
import DirectoryReconcile.Schema.Wrapped

/-!
# The known object types

Groups, users, services, certificate authorities and their access rules, zones and records.
-/

namespace DirectoryReconcile.ObjectSchema

open AttributeSpec

/-- A text or number written when an object is created and never again. -/
def onCreation (spec : AttributeSpec) : AttributeSpec :=
  { spec with actions := .ofList [.add] }

def flag (name : String) : AttributeSpec := { scalar name with kind := .bool }

def number (name : String) : AttributeSpec := { scalar name with kind := .int }

def group : ObjectSchema where
  toDeclaration := { Declaration.ofName "group" with
    attributes := [
      identityKey "cn",
      scalar "description",
      number "gidnumber",
      onCreation (flag "nonposix"),
      onCreation (flag "external"),
      (list "member_user").routed "group_add_member" "group_remove_member" "user",
      (list "member_group").routed "group_add_member" "group_remove_member" "group"]
    findPredicate := some .identityMatches }
  accepted := by decide +kernel

def userTexts : List String :=
  ["givenname", "sn", "cn", "displayname", "initials", "homedirectory", "gecos", "loginshell",
    "street", "l", "st", "postalcode", "ou", "title", "manager", "carlicense",
    "ipatokenradiusconfiglink", "ipatokenradiususername", "departmentnumber", "employeenumber",
    "employeetype", "preferredlanguage"]

def userLists : List String :=
  ["mail", "telephonenumber", "mobile", "pager", "facsimiletelephonenumber", "ipasshpubkey",
    "ipauserauthtype", "userclass"]

def user : ObjectSchema where
  toDeclaration := { Declaration.ofName "user" with
    attributes := identityKey "uid" :: userTexts.map scalar ++ userLists.map list ++ [
      number "gidnumber",
      -- Never reported back, so only sent on creation.
      onCreation (scalar "userpassword"),
      flag "nsaccountlock",
      { list "usercertificate" with encoding := .base64, normalizer := some .unwrapBase64 }.routed
        "user_add_cert" "user_remove_cert" "usercertificate",
      { list "krbprincipalname" with normalizer := some .stripRealm }.routedPositional
        "user_add_principal" "user_remove_principal"]
    enable := some ⟨"nsaccountlock", true⟩
    findPredicate := some .identityMatches
    responseHook := some .dropCanonicalPrincipal }
  accepted := by decide +kernel

/-- The lists of those who may write or read the keys of a service. -/
def keyAccess (access addMethod removeMethod : String) : List AttributeSpec :=
  ["user", "group", "host", "hostgroup"].map fun kind ↦
    (list ("ipaallowedtoperform_" ++ access ++ "_keys_" ++ kind)).routed addMethod removeMethod kind

def service : ObjectSchema where
  toDeclaration := { Declaration.ofName "service" with
    attributes := [
      identityKey "krbcanonicalname",
      { scalar "usercertificate" with normalizer := some .unwrapBase64 },
      scalar "krbprincipalauthind",
      flag "ipakrbrequirespreauth",
      flag "ipakrbokasdelegate",
      flag "ipakrboktoauthasdelegate",
      list "krbprincipalname",
      (list "managedby_host").routed "service_add_host" "service_remove_host" "host"] ++
      keyAccess "write" "service_allow_create_keytab" "service_disallow_create_keytab" ++
      keyAccess "read" "service_allow_retrieve_keytab" "service_disallow_retrieve_keytab"
    findPredicate := some .identityMatches
    responseHook := some .dropCanonicalPrincipal }
  accepted := by decide +kernel

/-- A list of members that has another name in responses. -/
def member (name remote addMethod removeMethod : String) : AttributeSpec :=
  { list name with remoteName := some remote }.routed addMethod removeMethod name

def caacl : ObjectSchema where
  toDeclaration := { Declaration.ofName "caacl" with
    attributes := [
      identityKey "cn",
      scalar "description",
      member "user" "memberuser_user" "caacl_add_user" "caacl_remove_user",
      member "group" "memberuser_group" "caacl_add_user" "caacl_remove_user",
      member "host" "memberhost_host" "caacl_add_host" "caacl_remove_host",
      member "hostgroup" "memberhost_hostgroup" "caacl_add_host" "caacl_remove_host",
      member "service" "memberservice_service" "caacl_add_service" "caacl_remove_service",
      member "certprofile" "ipamembercertprofile_certprofile" "caacl_add_profile"
        "caacl_remove_profile",
      member "ca" "ipamemberca_ca" "caacl_add_ca" "caacl_remove_ca"]
    findPredicate := some .identityMatches }
  accepted := by decide +kernel

def ca : ObjectSchema where
  toDeclaration := { Declaration.ofName "ca" with
    attributes := [
      identityKey "cn",
      { scalar "ipacasubjectdn" with actions := .ofList [.add, .find] },
      scalar "description"]
    findPredicate := some .identityMatches }
  accepted := by decide +kernel

/-- A text that the service reports as a wrapped name. -/
def dnsName (spec : AttributeSpec) : AttributeSpec :=
  { spec with normalizer := some .unwrapDnsName }

def dnszone : ObjectSchema where
  toDeclaration := { Declaration.ofName "dnszone" with
    attributes := [
      { dnsName (identityKey "idnsname") with findKeyword := true },
      dnsName (scalar "idnssoamname"),
      dnsName (scalar "idnssoarname"),
      number "idnssoaserial",
      number "idnssoarefresh",
      number "idnssoaretry",
      number "idnssoaexpire",
      number "idnssoaminimum",
      scalar "idnsallowquery",
      scalar "idnsallowtransfer",
      flag "idnsallowdynupdate",
      scalar "idnsupdatepolicy",
      list "nsrecord",
      flag "idnszoneactive"]
    enable := some ⟨"idnszoneactive", false⟩
    findPredicate := some .identityMatches }
  accepted := by decide +kernel

/-- The lists of resource records of a record. -/
def recordTypes : List String :=
  ["arecord", "aaaarecord", "cnamerecord", "ptrrecord", "srvrecord", "txtrecord"]

def dnsrecord : ObjectSchema where
  toDeclaration := { Declaration.ofName "dnsrecord" with
    attributes :=
      dnsName (identityKey "dnszoneidnsname") ::
      { dnsName (identityKey "idnsname") with encoding := .dnsName, findKeyword := true } ::
      recordTypes.map fun name ↦ (list name).routed "dnsrecord_add" "dnsrecord_del" name
    creation := .implicit
    removeArgs := .ofList [("del_all", .bool true)]
    findPredicate := some .identityMatches }
  accepted := by decide +kernel

/-- Every known type. -/
def builtins : List ObjectSchema := [group, user, service, caacl, ca, dnszone, dnsrecord]

end DirectoryReconcile.ObjectSchema
