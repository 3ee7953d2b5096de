/-!
The settings file that the program writes on request: every setting with its default value and a
remark on what it does.
-/

namespace Scaffold.Settings

/-- The lines of the settings file. -/
def templateLines : List String :=
  ["# nest-modgen configuration file",
   "",
   "[paths]",
   "# Prisma schema to read models from",
   "schema = \"src/database/prisma/schema.prisma\"",
   "",
   "# Generated modules land in <modules_dir>/<kebab-name>/",
   "modules_dir = \"src/modules\"",
   "",
   "[output]",
   "# Extension of generated files",
   "file_extension = \"ts\"",
   "",
   "# Spaces per indentation level (2 or 4)",
   "indent = 2",
   "",
   "# Indent with tabs instead of spaces",
   "use_tabs = false",
   "",
   "[optional_fields]",
   "# Fields always optional in create DTOs, in every model",
   "global = [",
   "    \"sku\",",
   "    \"description\",",
   "    \"shortDescription\",",
   "    \"compareAtPrice\",",
   "    \"brandId\",",
   "    \"isActive\",",
   "    \"isFeatured\",",
   "    \"stockQuantity\",",
   "    \"lowStockThreshold\",",
   "    \"metaTitle\",",
   "    \"metaDescription\",",
   "]",
   "",
   "# Per-model additions",
   "[optional_fields.models]",
   "# Product = [\"weight\"]",
   "",
   "[imports]",
   "base_repository = \"../../common/repositories/base.repository\"",
   "base_service = \"../../common/services/base.service\"",
   "base_controller = \"../../common/controllers/base.controller\"",
   "database_service = \"../../database/database.service\"",
   "prisma_client = \"@prisma/client\"",
   "decimal = \"@prisma/client/runtime/library\""]

/-- The text of the settings file. -/
def template : String :=
  String.join (templateLines.map fun line => line ++ "\n")

end Scaffold.Settings
