import ApiScaffold.Template.Builtin.Java
import ApiScaffold.Template.Builtin.Jaxrs
import ApiScaffold.Template.Builtin.Python
import ApiScaffold.Template.Builtin.Spring

/-!
# The built-in templates

All built-in templates by directory and name. A target lists the directories that it looks into, in
order, so that a template of its own comes before one that it shares.
-/

namespace ApiScaffold.Template.Builtin

/-- A built-in template and where it stands. -/
structure Entry where
  folder : String
  file : String
  template : Template

def all : List Entry := [
  ⟨"java", "README.md.j2", Java.readme⟩,
  ⟨"java", "model.java.j2", Java.modelFile⟩,
  ⟨"jaxrs-spec", "RestApplication.java.j2", Jaxrs.applicationFile⟩,
  ⟨"jaxrs-spec", "api.java.j2", Jaxrs.apiFile⟩,
  ⟨"jaxrs-spec", "pom.xml.j2", Jaxrs.buildDescriptor⟩,
  ⟨"python", "README.md.j2", Python.readme⟩,
  ⟨"python", "api.py.j2", Python.apiFile⟩,
  ⟨"python", "api_client.py.j2", Python.clientFile⟩,
  ⟨"python", "api_init.py.j2", Python.apiRoot⟩,
  ⟨"python", "model.py.j2", Python.modelFile⟩,
  ⟨"python", "models_init.py.j2", Python.modelsRoot⟩,
  ⟨"python", "package_init.py.j2", Python.packageRoot⟩,
  ⟨"python", "pyproject.toml.j2", Python.buildDescriptor⟩,
  ⟨"python", "serialization.py.j2", Python.serializationFile⟩,
  ⟨"spring", "Application.java.j2", Spring.applicationFile⟩,
  ⟨"spring", "api.java.j2", Spring.apiFile⟩,
  ⟨"spring", "application.properties.j2", Spring.propertiesFile⟩,
  ⟨"spring", "pom.xml.j2", Spring.buildDescriptor⟩]

end ApiScaffold.Template.Builtin
