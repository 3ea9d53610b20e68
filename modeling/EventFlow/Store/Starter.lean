import EventFlow.Store.Collections

/-!
# The starter bundle

Three workflows to begin with: onboarding of employees, approval of payrolls and reordering of
stock. They use the built-in types of actions only.
-/

set_option autoImplicit false

namespace EventFlow.Starter

/-- An active workflow. -/
def workflow (time : Instant) (id name description : String) (triggerEventType : String)
    (stepIds : List String) (defaults : List (String × Json)) : Workflow :=
  ⟨id, name, description, .active, triggerEventType, stepIds, .ofMembers defaults, time, time,
    anonymous⟩

/-- A step that stops its run where it fails. -/
def step (time : Instant) (workflowId : String) (order : UInt32) (id name : String)
    (kind : StepKind) (actionIds conditionIds : List String) : Step :=
  ⟨id, workflowId, name, "", kind, actionIds, conditionIds, .stop, Step.defaultTimeoutMs, order,
    .emptyObject, time, anonymous⟩

/-- A condition. -/
def condition (time : Instant) (id name : String) (kind : ConditionKind) : Condition :=
  ⟨id, name, "", kind, time, anonymous⟩

/-- An action. -/
def action (time : Instant) (actionType id name template : String) (recipients : List Json)
    (config : List (String × Json)) : Action :=
  ⟨id, name, "", actionType, template, recipients, .ofMembers config, time, anonymous⟩

/-- A recipient with one member. -/
def recipient (key value : String) : Json := .ofMembers [(key, .string value)]

/-- The three workflows. -/
def workflows (time : Instant) : List Workflow :=
  [workflow time "employee_onboarding" "Employee onboarding"
      "Onboarding process for new employees" "employee_created"
      ["create_account", "send_welcome_email", "assign_manager", "schedule_training"]
      [("company", .string "Acme")],
    workflow time "payroll_approval" "Payroll approval" "Monthly payroll approval process"
      "payroll_generated"
      ["notify_manager", "wait_approval", "send_notifications", "finalize_payroll"] [],
    workflow time "inventory_low_stock" "Low stock" "Reorder process when stock runs low"
      "inventory_low_stock"
      ["check_stock", "notify_purchasing", "create_purchase_order", "update_inventory"] []]

/-- The steps of onboarding. -/
def onboarding (time : Instant) : List Step :=
  let step := step time "employee_onboarding"
  [step 0 "create_account" "Create account" .action ["create_account_record"] [],
    { step 1 "send_welcome_email" "Send welcome email" .action ["welcome_email"] [] with
      errorPolicy := .retry 2 },
    step 2 "assign_manager" "Manager assigned" .condition [] ["has_manager"],
    step 3 "schedule_training" "Schedule training" .action ["training_notice"] []]

/-- The steps of a payroll's approval. -/
def payroll (time : Instant) : List Step :=
  let step := step time "payroll_approval"
  [step 0 "notify_manager" "Notify manager" .action ["payroll_review_email"] [],
    { step 1 "wait_approval" "Wait for approval" .wait [] [] with
      config := .ofMembers [("duration", .ofNat 1000)] },
    { step 2 "send_notifications" "Notify employees" .parallel ["payroll_sms", "payroll_notice"]
        [] with
      errorPolicy := .continue },
    step 3 "finalize_payroll" "Finalize payroll" .action ["payroll_record"] []]

/-- The steps of a reorder. -/
def reorder (time : Instant) : List Step :=
  let step := step time "inventory_low_stock"
  [step 0 "check_stock" "Check stock" .condition [] ["below_minimum"],
    step 1 "notify_purchasing" "Notify purchasing" .action ["purchasing_email"] [],
    step 2 "create_purchase_order" "Create purchase order" .action ["purchase_order_record"] [],
    { step 3 "update_inventory" "Update inventory log" .action ["inventory_log"] [] with
      errorPolicy := .continue }]

/-- The conditions of all steps. -/
def conditions (time : Instant) : List Condition :=
  [condition time "has_manager" "Manager assigned" (.expression "\x7b\x7bmanager\x7d\x7d != ''"),
    condition time "below_minimum" "Below minimum stock"
      (.fieldCompare "stock.below_minimum" .equals (.bool true))]

/-- The records and messages of onboarding. -/
def onboardingActions (time : Instant) : List Action :=
  [action time "database" "create_account_record" "Create account record" "" []
      [("collection", .string "accounts"),
        ("record", .ofMembers [("name", .string "\x7b\x7bname\x7d\x7d"),
          ("email", .string "\x7b\x7bemail\x7d\x7d")])],
    action time "email" "welcome_email" "Welcome email"
      "Welcome to \x7b\x7bcompany\x7d\x7d, \x7b\x7bname\x7d\x7d"
      [recipient "email" "\x7b\x7bemail\x7d\x7d"] [("body", .string "Your account is ready.")],
    action time "notification" "training_notice" "Training notice"
      "Training scheduled for \x7b\x7bname\x7d\x7d" [recipient "user" "\x7b\x7bmanager\x7d\x7d"]
      [("title", .string "New hire training"),
        ("channels", .array [.string "in-app", .string "email"])]]

/-- The records and messages of a payroll. -/
def payrollActions (time : Instant) : List Action :=
  [action time "email" "payroll_review_email" "Payroll review request"
      "Payroll \x7b\x7bperiod\x7d\x7d is ready for review"
      [recipient "email" "\x7b\x7bmanager_email\x7d\x7d"] [],
    action time "sms" "payroll_sms" "Payroll SMS" "Payroll \x7b\x7bperiod\x7d\x7d has been approved"
      [recipient "phone" "\x7b\x7bhr_phone\x7d\x7d"] [],
    action time "notification" "payroll_notice" "Payroll notice"
      "Payroll \x7b\x7bperiod\x7d\x7d approved" [] [("title", .string "Payroll")],
    action time "database" "payroll_record" "Payroll record" "" []
      [("collection", .string "payroll_runs")]]

/-- The records and messages of a reorder. -/
def reorderActions (time : Instant) : List Action :=
  [action time "email" "purchasing_email" "Purchasing email"
      "Stock low for \x7b\x7bsku\x7d\x7d: \x7b\x7bstock.quantity\x7d\x7d left"
      [recipient "email" "purchasing@example.com"] [],
    action time "database" "purchase_order_record" "Purchase order" "" []
      [("collection", .string "purchase_orders"),
        ("record", .ofMembers [("sku", .string "\x7b\x7bsku\x7d\x7d"),
          ("quantity", .string "\x7b\x7bstock.reorder_quantity\x7d\x7d")])],
    action time "file" "inventory_log" "Inventory log" "\x7b\x7bsku\x7d\x7d reordered" []
      [("path", .string "inventory/reorders.log")]]

/-- The whole bundle, created at a point of time. -/
def bundle (time : Instant) : Collections :=
  ⟨.ofRecords (workflows time),
    .ofRecords (onboarding time ++ payroll time ++ reorder time),
    .ofRecords (conditions time),
    .ofRecords (onboardingActions time ++ payrollActions time ++ reorderActions time), []⟩

end EventFlow.Starter
